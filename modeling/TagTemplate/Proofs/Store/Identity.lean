import TagTemplate.Proofs.Support.Sequences
import TagTemplate.Template.Parsed

/-!
# `TagTemplate.Proofs.Store.Identity`: what identifies a template

The identifier of a template is the digest of its bytes: the name of the format,
a zero byte and the content. No format has a zero byte in its name, so the first
zero byte ends the name and different templates have different bytes
(`identityBytes_injective`).

A digest can give two byte strings the same text. `NoCollision` says that it does
not do so for the templates of a list; then the identifier tells these templates
apart (`NoCollision.eq_of_id`).
-/

set_option autoImplicit false

namespace TagTemplate.Proofs.Store

open TagTemplate.Proofs.Support

/-! ### Bytes of texts -/

/-- The loop that lists the bytes of an array has those before its place in
reverse order. -/
theorem toList_loop (bytes : ByteArray) (place : Nat) (done : List UInt8) :
    ByteArray.toList.loop bytes place done = done.reverse ++ bytes.data.toList.drop place := by
  have hsize : bytes.data.toList.length = bytes.size := rfl
  induction place, done using ByteArray.toList.loop.induct bytes with
  -- A byte is left at the place.
  | case1 place done hlt ih =>
    have hplace : place < bytes.data.toList.length := hlt
    have hbyte : bytes.get! place = bytes.data.toList[place] := by
      rw [Array.getElem_toList]
      exact getElem!_pos bytes.data place hplace
    rw [ByteArray.toList.loop, if_pos hlt, ih, hbyte, List.drop_eq_getElem_cons hplace,
      List.reverse_cons, List.append_assoc]
    rfl
  -- The place is behind the last byte.
  | case2 place done hle =>
    rw [ByteArray.toList.loop, if_neg hle, List.drop_eq_nil_of_le (by omega), List.append_nil]

/-- Texts with the same bytes are the same. -/
theorem utf8Bytes_injective {s t : String} (h : s.toUTF8.toList = t.toUTF8.toList) : s = t := by
  have hbytes : ∀ bytes : ByteArray, bytes.toList = bytes.data.toList := fun bytes =>
    (toList_loop bytes 0 []).trans rfl
  rw [hbytes, hbytes] at h
  exact String.toByteArray_inj.mp (ByteArray.ext (Array.toList_inj.mp h))

/-! ### Bytes of templates -/

/-- No format has a zero byte in its name. -/
theorem zero_notMem_name (f : Format) : 0 ∉ f.name.toUTF8.toList := by
  cases f <;> decide +kernel

/-- Formats with the same name are the same. -/
theorem name_injective {f g : Format} (h : f.name = g.name) : f = g := by
  have hexactly := Format.exactly?_name f
  rw [h, Format.exactly?_name] at hexactly
  exact (Option.some.inj hexactly).symm

/-- The bytes that identify a template determine it. -/
theorem identityBytes_injective {t u : Template} (h : t.identityBytes = u.identityBytes) :
    t = u := by
  have hnone : ∀ f : Format, ∀ b ∈ f.name.toUTF8.toList, ¬ (b == 0) = true := fun f b hb heq =>
    zero_notMem_name f (beq_iff_eq.mp heq ▸ hb)
  obtain ⟨hname, -, hcontent⟩ := eq_of_first_eq (p := (· == 0)) h rfl rfl (hnone t.format)
    (hnone u.format)
  obtain ⟨content, format⟩ := t
  obtain rfl : format = u.format := name_injective (utf8Bytes_injective hname)
  obtain rfl : content = u.content := utf8Bytes_injective hcontent
  rfl

/-! ### Digests -/

/-- The digest gives no two of the templates the same text. -/
def NoCollision (ts : List Template) : Prop :=
  ∀ t ∈ ts, ∀ u ∈ ts,
    Sha256.hexDigest t.identityBytes = Sha256.hexDigest u.identityBytes →
      t.identityBytes = u.identityBytes

/-- Of templates without a collision no two have one identifier. -/
theorem NoCollision.eq_of_id {ts : List Template} (h : NoCollision ts) {t u : Template}
    (ht : t ∈ ts) (hu : u ∈ ts) (hid : t.id = u.id) : t = u :=
  identityBytes_injective (h t ht u hu hid)

/-- Fewer templates have no more collisions. -/
theorem NoCollision.subset {ts us : List Template} (h : NoCollision ts) (hsubset : us ⊆ ts) :
    NoCollision us := fun t ht u hu => h t (hsubset ht) u (hsubset hu)

end TagTemplate.Proofs.Store

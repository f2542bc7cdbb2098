import TagTemplate.Main
import TagTemplate.Proofs.Binding.Elementwise
import TagTemplate.Proofs.Binding.OneEntry
import TagTemplate.Proofs.CommandLine.Delivery
import TagTemplate.Proofs.CommandLine.Directories
import TagTemplate.Proofs.Layout.MinimalRegions
import TagTemplate.Proofs.Record.RoundTrip
import TagTemplate.Proofs.Template.QuotedParameters
import TagTemplate.Proofs.Template.Resumption
import TagTemplate.Proofs.Template.RoundTrip
import TagTemplate.Proofs.Template.Tokenization
import TagTemplate.Proofs.Binding.Slices
import TagTemplate.Proofs.Layout.LineStarts
import TagTemplate.Proofs.Binary64.WholeNumbers
import TagTemplate.Proofs.Formatter.NumberTexts
import TagTemplate.Proofs.Formatter.WholeNumbers
import TagTemplate.Proofs.Formatter.Comparisons
import TagTemplate.Proofs.Binding.FiniteResults
import TagTemplate.Proofs.Binding.Warnings
import TagTemplate.Proofs.Binding.InsertedCalls
import TagTemplate.Proofs.Binding.MissingValues
import TagTemplate.Proofs.CommandLine.Failures
import TagTemplate.Proofs.CommandLine.Runs
import TagTemplate.Proofs.CommandLine.Runs

import ModuleIndex.Main
import ModuleIndex.Proofs.Index.Script
import ModuleIndex.Proofs.Dependency.Answers
import ModuleIndex.Proofs.Page.SharedPlaces
import ModuleIndex.Proofs.CommandLine.Sessions
import ModuleIndex.Proofs.CommandLine.LocalFiles
import ModuleIndex.Proofs.Index.Shape
import ModuleIndex.Proofs.Index.Lookup
import ModuleIndex.Proofs.Style.Terminal
import ModuleIndex.Proofs.Description.Looks
import ModuleIndex.Proofs.CommandLine.Formats
import ModuleIndex.Proofs.Crate.ModulePath
import ModuleIndex.Proofs.Crate.Spec
import ModuleIndex.Proofs.CommandLine.SavedTexts
import ModuleIndex.Proofs.Index.Search
import ModuleIndex.Proofs.Index.Values
import ModuleIndex.Proofs.Index.Sections
import ModuleIndex.Proofs.Description.LineEnds
import ModuleIndex.Proofs.Description.Gaps
import ModuleIndex.Proofs.Listing.Alignment
import ModuleIndex.Proofs.Description.Colors
import ModuleIndex.Proofs.Dependency.Order
import ModuleIndex.Proofs.Page.PlainNames
import ModuleIndex.Proofs.Index.RepeatedKeys
import ModuleIndex.Proofs.Markdown.PlainLines
import ModuleIndex.Proofs.Description.Prose

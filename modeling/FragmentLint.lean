import FragmentLint.Main
import FragmentLint.Proofs.Discovery.Reach
import FragmentLint.Proofs.Edit.Repetition
import FragmentLint.Proofs.Edit.Splice
import FragmentLint.Proofs.Editor.LineStarts
import FragmentLint.Proofs.Editor.QuickFix
import FragmentLint.Proofs.Markup.Chain
import FragmentLint.Proofs.Markup.Collection
import FragmentLint.Proofs.Markup.TagName
import FragmentLint.Proofs.Progress
import FragmentLint.Proofs.Rendering.Fix
import FragmentLint.Proofs.Rule.FewChildren
import FragmentLint.Proofs.Rule.Findings
import FragmentLint.Proofs.Rule.Locality
import FragmentLint.Proofs.Rule.Naming
import FragmentLint.Proofs.Rule.Nested
import FragmentLint.Proofs.Safety
import FragmentLint.Proofs.Server.Coverage
import FragmentLint.Proofs.Server.Filter
import FragmentLint.Proofs.Server.Independence
import FragmentLint.Proofs.Server.Synchronization
import FragmentLint.Proofs.Settings
import FragmentLint.Proofs.Text.Trimming

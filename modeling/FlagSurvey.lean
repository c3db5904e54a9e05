import FlagSurvey.Main
import FlagSurvey.Proofs.Config.Limits
import FlagSurvey.Proofs.Definition.Numeral
import FlagSurvey.Proofs.Definition.Octets
import FlagSurvey.Proofs.Definition.Unended
import FlagSurvey.Proofs.Probe.Accuracy
import FlagSurvey.Proofs.Probe.Faults
import FlagSurvey.Proofs.Probe.Halving
import FlagSurvey.Proofs.Probe.Search
import FlagSurvey.Proofs.Registry
import FlagSurvey.Proofs.Survey.Ceiling
import FlagSurvey.Proofs.Survey.Entries
import FlagSurvey.Proofs.Survey.Failures
import FlagSurvey.Proofs.Survey.Fates
import FlagSurvey.Proofs.Survey.Renderings
import FlagSurvey.Proofs.Survey.Reproducible
import FlagSurvey.Registry
import FlagSurvey.Text.Excerpt
import FlagSurvey.Trial.Script
import FlagSurvey.Proofs.Definition.Literal
import FlagSurvey.Proofs.Survey.Lines
import FlagSurvey.Proofs.Version
import FlagSurvey.Proofs.Probe.Symmetry
import FlagSurvey.Proofs.Cursor.Faultless
import FlagSurvey.Proofs.Definition.Level
import FlagSurvey.Proofs.Definition.Search
import FlagSurvey.Proofs.Text.Excerpt

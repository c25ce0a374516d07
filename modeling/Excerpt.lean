import Excerpt.Device.Recorder
import Excerpt.Main
import Excerpt.Proofs.Collisions
import Excerpt.Proofs.Colors
import Excerpt.Proofs.Completeness
import Excerpt.Proofs.Connectors
import Excerpt.Proofs.Emission
import Excerpt.Proofs.Reach
import Excerpt.Proofs.Replay
import Excerpt.Proofs.Selection
import Excerpt.Proofs.Spans
import Excerpt.Proofs.Underlines
import Excerpt.Proofs.Layout.Feeds
import Excerpt.Proofs.Planned
import Excerpt.Proofs.Input.Loading
import Excerpt.Proofs.Input.Format
import Excerpt.Proofs.Theme.Wording
import Excerpt.Proofs.Theme.Styling
import Excerpt.Proofs.Theme.Unstyled
import Excerpt.Proofs.Themes
import Excerpt.Proofs.Device.Descriptor
import Excerpt.Proofs.Command.Outcome
import Excerpt.Proofs.Command.Stages
import Excerpt.Proofs.Command.Debug
import Excerpt.Proofs.Command.Isolation
import Excerpt.Proofs.Permutation
import Excerpt.Proofs.Reuse
import Excerpt.Proofs.Width
import Excerpt.Proofs.Canonical
import Excerpt.Proofs.Hanging
import Excerpt.Proofs.Input.Faults
import Excerpt.Proofs.Filling
import Excerpt.Proofs.Markup
import Excerpt.Proofs.Outline
import Excerpt.Proofs.Source.Answers
import Excerpt.Proofs.Tabs
import Excerpt.Proofs.Device.Delivery

import Phrasebook.Editor.Binding
import Phrasebook.Main
import Phrasebook.Proofs.Derivation.Binding
import Phrasebook.Proofs.Derivation.Generated
import Phrasebook.Proofs.Derivation.Wording
import Phrasebook.Proofs.Docs.Enclosed
import Phrasebook.Proofs.Docs.Entities
import Phrasebook.Proofs.Docs.OneLine
import Phrasebook.Proofs.Draw.Success
import Phrasebook.Proofs.Draw.Targets
import Phrasebook.Proofs.Draw.Turning
import Phrasebook.Proofs.Expansion.Agreement
import Phrasebook.Proofs.Expansion.Iterations
import Phrasebook.Proofs.Expansion.Limits
import Phrasebook.Proofs.Expansion.SiteOrder
import Phrasebook.Proofs.Lint.Closure
import Phrasebook.Proofs.Lint.EndlessRecursion
import Phrasebook.Proofs.Lint.Messages
import Phrasebook.Proofs.Lint.Runs
import Phrasebook.Proofs.Playback.Endings
import Phrasebook.Proofs.Seed.Decoding
import Phrasebook.Proofs.Seed.Walks
import Phrasebook.Proofs.Session.Failures
import Phrasebook.Proofs.Session.History
import Phrasebook.Proofs.Session.Twins
import Phrasebook.Proofs.Session.Uncached
import Phrasebook.Proofs.Session.Variants
import Phrasebook.Proofs.Source.Composition
import Phrasebook.Proofs.Source.FaultPlaces
import Phrasebook.Proofs.Source.Layout
import Phrasebook.Proofs.Source.QuotedStrings
import Phrasebook.Proofs.Source.RoundTrip
import Phrasebook.Proofs.Docs.Rendered
import Phrasebook.Proofs.Preview.Looking
import Phrasebook.Proofs.Preview.Reload
import Phrasebook.Proofs.Preview.Statistics
import Phrasebook.Proofs.Editor.Fronts
import Phrasebook.Proofs.Template.Printing

import SoundDesk.Error
import SoundDesk.OsPath
import SoundDesk.Table
import SoundDesk.SortedIndex
import SoundDesk.Json.Reader
import SoundDesk.Json.Decode
import SoundDesk.Control.Info
import SoundDesk.Control.Cached
import SoundDesk.Session
import SoundDesk.Attachments
import SoundDesk.Element.Caps
import SoundDesk.Scale
import SoundDesk.Element
import SoundDesk.Element.Operations
import SoundDesk.Wiring.Operations
import SoundDesk.Core
import SoundDesk.Text.Extending
import SoundDesk.Text.Quoted
import SoundDesk.Config
import SoundDesk.Provider
import SoundDesk.Provider.ByName
import SoundDesk.ProviderName
import SoundDesk.Registry
import SoundDesk.Mixer
import SoundDesk.Demo
import SoundDesk.Main
import SoundDesk.Binary64
import SoundDesk.Binary64.Shortest
import SoundDesk.Proofs.Commands
import SoundDesk.Proofs.Draining
import SoundDesk.Proofs.Loading
import SoundDesk.Proofs.Fanout
import SoundDesk.Proofs.Lines
import SoundDesk.Proofs.Registered
import SoundDesk.Proofs.Replay
import SoundDesk.Proofs.Mirror
import SoundDesk.Proofs.Bindings
import SoundDesk.Proofs.Steps
import SoundDesk.Proofs.Answers
import SoundDesk.Proofs.Additions
import SoundDesk.Proofs.Endpoints
import SoundDesk.Proofs.Orphans
import SoundDesk.Proofs.Shares
import SoundDesk.Proofs.Current
import SoundDesk.Proofs.Rebuild
import SoundDesk.Proofs.Exposed
import SoundDesk.Proofs.KeySet
import SoundDesk.Proofs.Relation
import SoundDesk.Proofs.Settled
import SoundDesk.Proofs.Operations
import SoundDesk.Proofs.Channels
import SoundDesk.Proofs.Groups
import SoundDesk.Proofs.Aborts
import SoundDesk.Proofs.Lossless
import SoundDesk.Proofs.Closing
import SoundDesk.Proofs.Resolutions
import SoundDesk.Proofs.Pairing
import SoundDesk.Proofs.Leftovers
import SoundDesk.Proofs.Lookups
import SoundDesk.Proofs.Overrides
import SoundDesk.Proofs.Forms
import SoundDesk.Proofs.Reordering
import SoundDesk.Proofs.Boards
import SoundDesk.Proofs.Removals
import SoundDesk.Proofs.Effects
import SoundDesk.Proofs.Refusals
import SoundDesk.Proofs.Spots
import SoundDesk.Proofs.Adjustments
import SoundDesk.Proofs.Rounding
import SoundDesk.Proofs.UserRange
import SoundDesk.Proofs.Images
import SoundDesk.Proofs.Decibels
import SoundDesk.Proofs.Overflow
import SoundDesk.Proofs.WriteBack
import SoundDesk.Proofs.OneSided
import SoundDesk.Proofs.Chains
import SoundDesk.Proofs.Affine
import SoundDesk.Proofs.Scans
import SoundDesk.Proofs.Weights
import SoundDesk.Proofs.Tours
import SoundDesk.Proofs.SafeWalks
import SoundDesk.Proofs.Descriptions
import SoundDesk.Proofs.Neighbours

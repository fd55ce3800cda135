import PictureUnit.A12
import PictureUnit.Background
import PictureUnit.Banks
import PictureUnit.Block
import PictureUnit.Cartridge
import PictureUnit.Circuit
import PictureUnit.Circuit.Dot
import PictureUnit.Circuit.Pixel
import PictureUnit.Circuit.Rendering
import PictureUnit.Clock
import PictureUnit.Control
import PictureUnit.Fetch
import PictureUnit.Host
import PictureUnit.Machine
import PictureUnit.Machine.Access
import PictureUnit.Machine.Catchup
import PictureUnit.Machine.Frame
import PictureUnit.Machine.Pausing
import PictureUnit.Machine.Span
import PictureUnit.Machine.Transfer
import PictureUnit.Mask
import PictureUnit.Object
import PictureUnit.Object.Evaluation
import PictureUnit.Object.Strip
import PictureUnit.Overflow
import PictureUnit.Palette
import PictureUnit.Pattern
import PictureUnit.Proofs.AddressLine
import PictureUnit.Proofs.Alike
import PictureUnit.Proofs.Alone
import PictureUnit.Proofs.Alongside
import PictureUnit.Proofs.Annals
import PictureUnit.Proofs.Answered
import PictureUnit.Proofs.Belonging
import PictureUnit.Proofs.Beside
import PictureUnit.Proofs.Births
import PictureUnit.Proofs.Blind
import PictureUnit.Proofs.Bond
import PictureUnit.Proofs.Bounds
import PictureUnit.Proofs.Cells
import PictureUnit.Proofs.Closing
import PictureUnit.Proofs.Colors
import PictureUnit.Proofs.Contents
import PictureUnit.Proofs.Copied
import PictureUnit.Proofs.Darkness
import PictureUnit.Proofs.Debounce
import PictureUnit.Proofs.Decoded
import PictureUnit.Proofs.Deeds
import PictureUnit.Proofs.Derived
import PictureUnit.Proofs.Diagonal
import PictureUnit.Proofs.Dots
import PictureUnit.Proofs.Drafts
import PictureUnit.Proofs.Eager
import PictureUnit.Proofs.Exact
import PictureUnit.Proofs.Flags
import PictureUnit.Proofs.Frame
import PictureUnit.Proofs.Gathered
import PictureUnit.Proofs.Grammar
import PictureUnit.Proofs.Guarded
import PictureUnit.Proofs.Handover
import PictureUnit.Proofs.Hits
import PictureUnit.Proofs.Hooks
import PictureUnit.Proofs.Hushed
import PictureUnit.Proofs.Ink
import PictureUnit.Proofs.Interrupt
import PictureUnit.Proofs.Journal
import PictureUnit.Proofs.Landed
import PictureUnit.Proofs.Latched
import PictureUnit.Proofs.Later
import PictureUnit.Proofs.Lineage
import PictureUnit.Proofs.Lockstep
import PictureUnit.Proofs.Lull
import PictureUnit.Proofs.Matched
import PictureUnit.Proofs.Overdue
import PictureUnit.Proofs.Pace
import PictureUnit.Proofs.Passage
import PictureUnit.Proofs.Picture
import PictureUnit.Proofs.Portrait
import PictureUnit.Proofs.Ports
import PictureUnit.Proofs.Raster
import PictureUnit.Proofs.Refined
import PictureUnit.Proofs.Reload
import PictureUnit.Proofs.Rendered
import PictureUnit.Proofs.Renewal
import PictureUnit.Proofs.Resting
import PictureUnit.Proofs.Restored
import PictureUnit.Proofs.Resumed
import PictureUnit.Proofs.Ring
import PictureUnit.Proofs.Rises
import PictureUnit.Proofs.RoundTrip
import PictureUnit.Proofs.Scene
import PictureUnit.Proofs.Script
import PictureUnit.Proofs.Search
import PictureUnit.Proofs.Secondary
import PictureUnit.Proofs.Session
import PictureUnit.Proofs.Settings
import PictureUnit.Proofs.Shown
import PictureUnit.Proofs.SideBySide
import PictureUnit.Proofs.Slots
import PictureUnit.Proofs.Sought
import PictureUnit.Proofs.Stamps
import PictureUnit.Proofs.Standing
import PictureUnit.Proofs.StatusRead
import PictureUnit.Proofs.Story
import PictureUnit.Proofs.Sweep
import PictureUnit.Proofs.Tandem
import PictureUnit.Proofs.Tiles
import PictureUnit.Proofs.Touch
import PictureUnit.Proofs.Trail
import PictureUnit.Proofs.Twins
import PictureUnit.Proofs.Unbroken
import PictureUnit.Proofs.Uncapped
import PictureUnit.Proofs.Undisturbed
import PictureUnit.Proofs.Unlimited
import PictureUnit.Proofs.VblankFlag
import PictureUnit.Proofs.Visit
import PictureUnit.Proofs.WarmUp
import PictureUnit.Proofs.Widths
import PictureUnit.Proofs.Wording
import PictureUnit.Proofs.ZeroHit
import PictureUnit.Region
import PictureUnit.Register
import PictureUnit.Screen
import PictureUnit.Scroll.Address
import PictureUnit.Scroll.Latch
import PictureUnit.Snapshot
import PictureUnit.Snapshot.Chunk
import PictureUnit.Status
import PictureUnit.Text.Hex
import PictureUnit.Text.Printable
import PictureUnit.Text.Quoted
import PictureUnit.Wire
import PictureUnit.Wrap

import StepScope.Listing.Assembly
import StepScope.Main
import StepScope.Snapshot.Writer
import StepScope.Proofs.Scan
import StepScope.Proofs.Tiling
import StepScope.Proofs.Classification
import StepScope.Proofs.Files
import StepScope.Proofs.Keyed
import StepScope.Proofs.Mnemonics
import StepScope.Proofs.Reassembly
import StepScope.Proofs.Rendering
import StepScope.Proofs.StoredSettings
import StepScope.Proofs.Bare
import StepScope.Proofs.Composition
import StepScope.Proofs.Markup
import StepScope.Proofs.Surfaces
import StepScope.Proofs.Json
import StepScope.Proofs.JsonNesting
import StepScope.Proofs.SnapshotJson
import StepScope.Proofs.Lines
import StepScope.Proofs.Panels
import StepScope.Proofs.Growth
import StepScope.Proofs.Frame
import StepScope.Proofs.JsonLocality
import StepScope.Proofs.JsonHalting
import StepScope.Proofs.SnapshotLocality
import StepScope.Proofs.SnapshotForms
import StepScope.Proofs.Cursor
import StepScope.Proofs.Endings
import StepScope.Proofs.HexInput
import StepScope.Proofs.Numbers
import StepScope.Proofs.Names
import StepScope.Proofs.Cuts
import StepScope.Proofs.Outcomes
import StepScope.Proofs.StoragePanel
import StepScope.Proofs.Dumps
import StepScope.Proofs.Slots
import StepScope.Proofs.WordInput
import StepScope.Proofs.RenderedInput
import StepScope.Proofs.AddressBook
import StepScope.Proofs.StackPanel
import StepScope.Proofs.Header
import StepScope.Proofs.Bounded
import StepScope.Proofs.ByteOrder

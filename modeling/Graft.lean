import Graft.Survey
import Graft.Session
import Graft.Document.Expansion
import Graft.Registry.Change
import Graft.Proofs.Exposed
import Graft.Proofs.Leftover
import Graft.Proofs.Again
import Graft.Proofs.AliasChain
import Graft.Proofs.Normal
import Graft.Proofs.CycleGuard
import Graft.Proofs.Resume
import Graft.Proofs.Depth
import Graft.Proofs.Sections
import Graft.Proofs.Authoring
import Graft.Proofs.Reading
import Graft.Proofs.TypedDocument
import Graft.Proofs.Agreement
import Graft.Proofs.Siblings
import Graft.Proofs.Entries
import Graft.Proofs.Choices
import Graft.Proofs.History
import Graft.Proofs.Catalogue
import Graft.Proofs.Encounters
import Graft.Proofs.Rounds
import Graft.Proofs.Nesting
import Graft.Proofs.Unreferenced
import Graft.Proofs.Accounting
import Graft.Proofs.DocumentParts
import Graft.Proofs.Writing
import Graft.Proofs.MergedPaths
import Graft.Proofs.MergeLaws
import Graft.Proofs.Spelling
import Graft.Proofs.PointerText
import Graft.Proofs.Inventory
import Graft.Proofs.Collectors
import Graft.Proofs.SectionKeys
import Graft.Proofs.Failures
import Graft.Proofs.Stamp
import Graft.Proofs.Bundles
import Graft.Proofs.Directory
import Graft.Proofs.FieldOrder
import Graft.Proofs.Calls
import Graft.Proofs.OrganCount

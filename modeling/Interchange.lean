import Interchange.Attributes
import Interchange.BackReferences
import Interchange.Builder
import Interchange.Builder.Member
import Interchange.Catalog
import Interchange.Catalog.Derivation
import Interchange.Catalog.Resolve
import Interchange.Config
import Interchange.Decimal.Shortest
import Interchange.Diagnostic.Basic
import Interchange.Diagnostic.Kind
import Interchange.Error
import Interchange.ExchangeSet
import Interchange.Interner
import Interchange.Json.Cursor
import Interchange.Json.Error
import Interchange.Json.Number
import Interchange.Json.Printer
import Interchange.Json.Reader
import Interchange.Json.Skim
import Interchange.Json.Text
import Interchange.Json.Value
import Interchange.Kind
import Interchange.Lock.Allowed
import Interchange.Lock.Forms
import Interchange.Lock.Policies
import Interchange.NameMap
import Interchange.Naming.Pattern
import Interchange.Naming.Strategy
import Interchange.Naming.Support
import Interchange.Naming.Table
import Interchange.Nullability
import Interchange.Proofs.AllowedFamilies
import Interchange.Proofs.BackReferenceChains
import Interchange.Proofs.BackReferenceIndex
import Interchange.Proofs.BuilderEdits
import Interchange.Proofs.BuilderHistory
import Interchange.Proofs.CatalogEdits
import Interchange.Proofs.CatalogIdentity
import Interchange.Proofs.CatalogSoundness
import Interchange.Proofs.CatalogStructure
import Interchange.Proofs.CounterpartRuns
import Interchange.Proofs.Counterparts
import Interchange.Proofs.DeclarationChecks
import Interchange.Proofs.DefaultChains
import Interchange.Proofs.DerivationDepth
import Interchange.Proofs.DraftEntries
import Interchange.Proofs.DuplicateDeclarations
import Interchange.Proofs.EligibilityCounts
import Interchange.Proofs.ExclusionFixedPoint
import Interchange.Proofs.ExclusionRuns
import Interchange.Proofs.FieldDeclarations
import Interchange.Proofs.FieldReplacement
import Interchange.Proofs.FinalForms
import Interchange.Proofs.FormLaws
import Interchange.Proofs.FormOrigins
import Interchange.Proofs.FormSettling
import Interchange.Proofs.InterfaceCycles
import Interchange.Proofs.LockCompletion
import Interchange.Proofs.LockEdits
import Interchange.Proofs.LockedForms
import Interchange.Proofs.MemberCounterparts
import Interchange.Proofs.MemberEdits
import Interchange.Proofs.MemberOutcomes
import Interchange.Proofs.NameLookups
import Interchange.Proofs.NameMapReuse
import Interchange.Proofs.NameSlots
import Interchange.Proofs.NameTrees
import Interchange.Proofs.NamingFaults
import Interchange.Proofs.NamingRules
import Interchange.Proofs.PartOrder
import Interchange.Proofs.PolicyEquations
import Interchange.Proofs.PolicySearch
import Interchange.Proofs.Propagation
import Interchange.Proofs.RegularNames
import Interchange.Proofs.RegularRecords
import Interchange.Proofs.RequiredMembers
import Interchange.Proofs.ResolutionBounds
import Interchange.Proofs.ResolutionCases
import Interchange.Proofs.ResolutionEffects
import Interchange.Proofs.ResolutionFailure
import Interchange.Proofs.ResolutionGrowth
import Interchange.Proofs.ResolutionRuns
import Interchange.Proofs.ResolutionSymmetry
import Interchange.Proofs.ResolutionTwins
import Interchange.Proofs.RuntimeErasure
import Interchange.Proofs.SimpleNames
import Interchange.Proofs.SlotIsolation
import Interchange.Proofs.SlotPermutation
import Interchange.Proofs.StandardNames
import Interchange.Proofs.SubsetDependence
import Interchange.Proofs.SupportEntries
import Interchange.Proofs.TableAdditions
import Interchange.Proofs.TablePersistence
import Interchange.Proofs.TypeOrder
import Interchange.Shape
import Interchange.Structure
import Interchange.System
import Interchange.Text.Blank
import Interchange.Text.Printable
import Interchange.Text.Qualified
import Interchange.Text.Quoted
import Interchange.TypeId

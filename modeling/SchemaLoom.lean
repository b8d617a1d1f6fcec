import SchemaLoom.Host.Memory
import SchemaLoom.Main
import SchemaLoom.Proofs.Acceptance
import SchemaLoom.Proofs.Accounting
import SchemaLoom.Proofs.CleanReplies
import SchemaLoom.Proofs.Columns
import SchemaLoom.Proofs.ConstraintNames
import SchemaLoom.Proofs.Cutting
import SchemaLoom.Proofs.Diagrams
import SchemaLoom.Proofs.Dropping
import SchemaLoom.Proofs.HeldTexts
import SchemaLoom.Proofs.IssueCounts
import SchemaLoom.Proofs.KeyNamedColumns
import SchemaLoom.Proofs.KeyOrder
import SchemaLoom.Proofs.Loading
import SchemaLoom.Proofs.LooseEntities
import SchemaLoom.Proofs.NormalForms
import SchemaLoom.Proofs.Ownership
import SchemaLoom.Proofs.Positions
import SchemaLoom.Proofs.PrimaryKeys
import SchemaLoom.Proofs.QualifiedNames
import SchemaLoom.Proofs.Reapplying
import SchemaLoom.Proofs.Rearrangements
import SchemaLoom.Proofs.RenderedReplies
import SchemaLoom.Proofs.Rounds
import SchemaLoom.Proofs.SchemaReplies
import SchemaLoom.Proofs.Shares
import SchemaLoom.Proofs.TypeParameters

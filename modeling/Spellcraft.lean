import Spellcraft.CommandLine.Program
import Spellcraft.Main
import Spellcraft.Scripted
import Spellcraft.Proofs.Cast.Run
import Spellcraft.Proofs.Cast.Simulation
import Spellcraft.Proofs.Cast.Observation
import Spellcraft.Proofs.Cast.Restoration
import Spellcraft.Proofs.Cast.Hushed
import Spellcraft.Proofs.Cast.Phases
import Spellcraft.Proofs.Cast.Transaction
import Spellcraft.Proofs.Cast.Payment
import Spellcraft.Proofs.Catalog.Failure
import Spellcraft.Proofs.Catalog.Account
import Spellcraft.Proofs.Cast.Frame
import Spellcraft.Proofs.Catalog.History
import Spellcraft.Proofs.Number.Conversion
import Spellcraft.Proofs.Number.Integers
import Spellcraft.Proofs.Value.Storage
import Spellcraft.Proofs.Schema.Build
import Spellcraft.Proofs.Tag.Bytes
import Spellcraft.Proofs.Tag.Canonical
import Spellcraft.Proofs.Schema.Revalidation
import Spellcraft.Proofs.Parameters.Storage
import Spellcraft.Proofs.Cast.Fidelity
import Spellcraft.Proofs.Schema.Acceptance
import Spellcraft.Proofs.Config.Layers
import Spellcraft.Proofs.Cast.Installation
import Spellcraft.Proofs.Catalog.Agreement
import Spellcraft.Proofs.Catalog.FixedCast
import Spellcraft.Proofs.Parameters.Canonical
import Spellcraft.Proofs.Catalog.Admission
import Spellcraft.Proofs.Catalog.Mana
import Spellcraft.Proofs.Config.Requests
import Spellcraft.Proofs.Catalog.Isolation
import Spellcraft.Proofs.Schema.Flags
import Spellcraft.Proofs.Catalog.DirectCast
import Spellcraft.Proofs.Parameters.FieldText
import Spellcraft.Proofs.Parameters.NumberText
import Spellcraft.Proofs.Schema.Rearrangement
import Spellcraft.Proofs.Json.Shape
import Spellcraft.Proofs.Parameters.Members
import Spellcraft.Proofs.Uuid
import Spellcraft.Proofs.Schema.TextFields
import Spellcraft.Proofs.Number.Order
import Spellcraft.Proofs.Json.IntegerLiteral
import Spellcraft.Proofs.Parameters.IntegerText
import Spellcraft.Proofs.Config.Power
import Spellcraft.Proofs.Schema.Declarations
import Spellcraft.Proofs.Schema.Representation
import Spellcraft.Proofs.Value.Kinds
import Spellcraft.Proofs.Cast.Scopes
import Spellcraft.Proofs.Catalog.Stocking
import Spellcraft.Proofs.Config.JsonTable

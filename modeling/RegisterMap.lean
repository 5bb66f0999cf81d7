import RegisterMap.Main
import RegisterMap.Proofs.Export.Site
import RegisterMap.Proofs.Export.TypeCode
import RegisterMap.Proofs.Export.Written
import RegisterMap.Proofs.Export.LevelOrder
import RegisterMap.Proofs.Report.Trace
import RegisterMap.Proofs.Report.Outcome
import RegisterMap.Proofs.Model.Expansion
import RegisterMap.Proofs.Swift.Layout
import RegisterMap.Proofs.Text.Line
import RegisterMap.Proofs.Export.Accessors
import RegisterMap.Proofs.Export.PeripheralUnit
import RegisterMap.Proofs.Derivation.ClusterPlace
import RegisterMap.Proofs.Derivation.Order
import RegisterMap.Proofs.Derivation.Validation
import RegisterMap.Proofs.Description.Words
import RegisterMap.Proofs.Export.DeviceUnit
import RegisterMap.Proofs.Export.ReachableAddress
import RegisterMap.Proofs.Export.StoredUnits
import RegisterMap.Proofs.Swift.FieldNames
import RegisterMap.Proofs.Report.Settled
import RegisterMap.Proofs.Export.FieldMember
import RegisterMap.Proofs.Export.RegisterBody
import RegisterMap.Proofs.Export.Declared
import RegisterMap.Proofs.Export.Overflow
import RegisterMap.Proofs.Export.Inheritance
import RegisterMap.Proofs.Export.AliasTarget
import RegisterMap.Proofs.Export.Outcome
import RegisterMap.Proofs.Export.LeftOut
import RegisterMap.Proofs.Swift.LaidLines
import RegisterMap.Proofs.Swift.Nesting
import RegisterMap.Proofs.Swift.SourceLine
import RegisterMap.Proofs.Export.UnitLayout
import RegisterMap.Proofs.Model.Bare
import RegisterMap.Proofs.Derivation.Bare
import RegisterMap.Proofs.Export.Bare
import RegisterMap.Proofs.Swift.CommentFree
import RegisterMap.Proofs.Export.CodeOnly
import RegisterMap.Proofs.Report.Agreement
import RegisterMap.Proofs.Description.Edit
import RegisterMap.Proofs.Description.Lookup
import RegisterMap.Proofs.Description.Invariance
import RegisterMap.Proofs.Description.Reading
import RegisterMap.Proofs.Description.Visit
import RegisterMap.Proofs.Text.Trimmed
import RegisterMap.Proofs.Description.Bits
import RegisterMap.Proofs.Description.WellFormed
import RegisterMap.Proofs.Description.FirstFault
import RegisterMap.Proofs.Description.NumberRange
import RegisterMap.Proofs.Number.Numeral
import RegisterMap.Proofs.Description.Plain
import RegisterMap.Proofs.Description.Written
import RegisterMap.Proofs.Derivation.Permutation
import RegisterMap.Proofs.Export.DocumentOrder
import RegisterMap.Proofs.Export.Restriction
import RegisterMap.Proofs.Export.WholeUnits
import RegisterMap.Proofs.Derivation.Chain
import RegisterMap.Proofs.Swift.WriterRun
import RegisterMap.Proofs.Derivation.PrintedReference
import RegisterMap.Proofs.Derivation.LexicalLookup
import RegisterMap.Proofs.Export.BaseName
import RegisterMap.Proofs.Report.InStep
import RegisterMap.Proofs.Swift.Marking
import RegisterMap.Proofs.Export.AccessLevel
import RegisterMap.Proofs.Derivation.Sorting
import RegisterMap.Proofs.Swift.Pieces
import RegisterMap.Proofs.CommandLine.Choices
import RegisterMap.Proofs.CommandLine.FileTree
import RegisterMap.Proofs.CommandLine.Generation
import RegisterMap.Proofs.Swift.OwnName
import RegisterMap.Proofs.Description.BitForms
import RegisterMap.Proofs.Number.HexLiteral
import RegisterMap.Proofs.Export.ArrayElements
import RegisterMap.Proofs.Description.ConstraintKind
import RegisterMap.Proofs.Description.Padding
import RegisterMap.Proofs.Description.PaddedDescription
import RegisterMap.Proofs.Text.Delimited
import RegisterMap.Proofs.Export.BitTiles
import RegisterMap.Proofs.Export.NamedSelection
import RegisterMap.Proofs.Description.ElementAddress
import RegisterMap.Proofs.Export.SiblingNames
import RegisterMap.Proofs.Export.UnitNames

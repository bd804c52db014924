import ContractSurface.Main
import ContractSurface.Proofs.Source.Brackets
import ContractSurface.Proofs.Source.Grammar
import ContractSurface.Proofs.Source.Completeness
import ContractSurface.Proofs.Source.Recovery
import ContractSurface.Proofs.Call.Invocation
import ContractSurface.Proofs.Call.Kinds
import ContractSurface.Proofs.Session.Effects
import ContractSurface.Proofs.Session.Origin
import ContractSurface.Proofs.Build.Writing
import ContractSurface.Proofs.Build.Course
import ContractSurface.Proofs.Build.Order
import ContractSurface.Proofs.Build.Steps
import ContractSurface.Proofs.Source.Comments
import ContractSurface.Proofs.Session.Moves
import ContractSurface.Proofs.Session.Terminal
import ContractSurface.Proofs.Session.Transparency
import ContractSurface.Proofs.Session.Collecting
import ContractSurface.Proofs.Session.Input
import ContractSurface.Proofs.Session.Accounts
import ContractSurface.Proofs.Build.Requests
import ContractSurface.Proofs.Source.Lexing
import ContractSurface.Call.Binding
import ContractSurface.Proofs.Interface.Operations
import ContractSurface.Proofs.Call.Dispatch
import ContractSurface.Proofs.TypeScript.Agreement
import ContractSurface.Proofs.Source.Sites
import ContractSurface.Proofs.TypeScript.Names
import ContractSurface.Proofs.TypeScript.Conversions
import ContractSurface.Proofs.Build.Flights
import ContractSurface.Proofs.Call.Refusals
import ContractSurface.Proofs.Text.Utf8
import ContractSurface.Proofs.Call.Receipts
import ContractSurface.Proofs.Text.Quoted
import ContractSurface.Proofs.TypeScript.Lines
import ContractSurface.Proofs.Session.Numbers
import ContractSurface.Proofs.TypeScript.Numbering
import ContractSurface.Proofs.Call.JsonForms
import ContractSurface.Proofs.Call.Integers
import ContractSurface.Proofs.Build.Emission
import ContractSurface.Proofs.TypeScript.Splicing
import ContractSurface.Proofs.Session.Asking
import ContractSurface.Proofs.TypeScript.ArgumentTypes
import ContractSurface.Proofs.TypeScript.CarriedTexts
import ContractSurface.Proofs.Source.Rereading
import ContractSurface.Proofs.Source.Seams
import ContractSurface.Proofs.Build.Location
import ContractSurface.Proofs.TypeScript.Remarks
import ContractSurface.Proofs.Source.Parameters
import ContractSurface.Proofs.Interface.DeclaredTypes

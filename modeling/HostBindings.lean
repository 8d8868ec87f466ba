import HostBindings.Bridge.Payload
import HostBindings.Bridge.Registry
import HostBindings.Bridge.Scalar
import HostBindings.Main
import HostBindings.Proofs.Generate.Closed
import HostBindings.Proofs.Generate.Ownership
import HostBindings.Proofs.Catalog.Verdict
import HostBindings.Proofs.Catalog.FirstUses
import HostBindings.Proofs.Spelling.Grammar
import HostBindings.Proofs.Document.Encoding
import HostBindings.Proofs.Generate.ModelLabels
import HostBindings.Proofs.Generate.MemberNames
import HostBindings.Proofs.Bridge.Log
import HostBindings.Proofs.Generate.Sides
import HostBindings.Proofs.Generate.Listing
import HostBindings.Proofs.Generate.TopNames
import HostBindings.Proofs.Layout.Lines
import HostBindings.Proofs.Generate.Indent
import HostBindings.Proofs.Generate.Parity
import HostBindings.Proofs.Generate.Made
import HostBindings.Proofs.Generate.Identifiers
import HostBindings.Proofs.Code.Brackets
import HostBindings.Proofs.Layout.Brackets
import HostBindings.Proofs.Target.Brackets
import HostBindings.Proofs.Generate.Words
import HostBindings.Proofs.Generate.Brackets
import HostBindings.Proofs.Code.Uses
import HostBindings.Proofs.Catalog.Loading
import HostBindings.Proofs.Command.Run
import HostBindings.Proofs.Generate.Shadows
import HostBindings.Proofs.Code.Imports
import HostBindings.Proofs.Layout.Imports
import HostBindings.Proofs.Layout.BlankLines
import HostBindings.Proofs.Generate.Json
import HostBindings.Proofs.Generate.Imports
import HostBindings.Proofs.Spelling.Canonical
import HostBindings.Proofs.Spelling.Wrappers
import HostBindings.Proofs.Naming.CamelCase
import HostBindings.Proofs.Marshal.Opposites
import HostBindings.Proofs.Generate.FileName
import HostBindings.Proofs.Command.Libraries
import HostBindings.Proofs.Target.Readings
import HostBindings.Proofs.Bridge.Texts

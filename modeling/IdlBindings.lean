import IdlBindings.Text.Lines
import IdlBindings.Naming.ClassName
import IdlBindings.Naming.Identifier
import IdlBindings.Naming.Pool
import IdlBindings.Json.Value
import IdlBindings.Schema.Reading
import IdlBindings.Schema.Writing
import IdlBindings.Registry.Lineage
import IdlBindings.Diagnostic
import IdlBindings.Binding.Surface
import IdlBindings.Binding.Conversion
import IdlBindings.Binding.Usage
import IdlBindings.Template.Basic
import IdlBindings.Template.Set
import IdlBindings.Binding.Interface
import IdlBindings.Binding.Dictionary
import IdlBindings.Generation.Output
import IdlBindings.Native.Exception
import IdlBindings.Proofs.Text.Utf8
import IdlBindings.Proofs.Text.ByteOrder
import IdlBindings.Proofs.Files.Tree
import IdlBindings.Proofs.Naming.Pool
import IdlBindings.Proofs.Naming.ClassName
import IdlBindings.Proofs.Naming.Identifier
import IdlBindings.Proofs.Schema.Bindable
import IdlBindings.Proofs.Schema.MemberCheck
import IdlBindings.Proofs.Schema.BindableMembers
import IdlBindings.Proofs.Registry.Registration
import IdlBindings.Proofs.Registry.Ancestry
import IdlBindings.Proofs.Registry.Construction
import IdlBindings.Proofs.Registry.Extension
import IdlBindings.Proofs.Registry.Bindable
import IdlBindings.Proofs.Template.Rendering
import IdlBindings.Proofs.Binding.Members
import IdlBindings.Proofs.Binding.Names
import IdlBindings.Proofs.Binding.MethodTable
import IdlBindings.Proofs.Binding.References
import IdlBindings.Proofs.Binding.Identifiers
import IdlBindings.Proofs.Generation.UnitText
import IdlBindings.Proofs.Generation.RunOutcome
import IdlBindings.Proofs.Generation.MemberAccount
import IdlBindings.Proofs.Generation.ReferenceClosure
import IdlBindings.Proofs.Generation.UnitOrder
import IdlBindings.Proofs.Generation.Release
import IdlBindings.Proofs.Generation.EmittedNames
import IdlBindings.Proofs.Generation.UnrelatedUnit
import IdlBindings.Proofs.Generation.RejectedMembers
import IdlBindings.Proofs.Generation.WrittenFiles
import IdlBindings.Proofs.Json.Printing
import IdlBindings.Proofs.Schema.RoundTrip
import IdlBindings.Proofs.Generation.Asides
import IdlBindings.Proofs.Binding.DictionaryLayout
import IdlBindings.Proofs.Binding.ParentKinds
import IdlBindings.Proofs.Json.Rereading
import IdlBindings.Proofs.Schema.Rereading
import IdlBindings.Proofs.Schema.LoaderAgreement
import IdlBindings.Proofs.Binding.DictionaryParts
import IdlBindings.Proofs.Registry.Inheritance
import IdlBindings.Proofs.Naming.Words
import IdlBindings.Proofs.Naming.SnakeCase
import IdlBindings.Proofs.Naming.ClassLetters
import IdlBindings.Proofs.Naming.Recasing
import IdlBindings.Proofs.Template.Spelling
import IdlBindings.Proofs.Naming.Allocation
import IdlBindings.Proofs.Binding.ArgumentNames
import IdlBindings.Proofs.Registry.AppendOnly
import IdlBindings.Proofs.Json.Evaluation
import IdlBindings.Proofs.Schema.UnknownKinds
import IdlBindings.Proofs.Text.ValidBytes
import IdlBindings.Proofs.Native.Strings
import IdlBindings.Proofs.Files.Changes
import IdlBindings.Proofs.Generation.StandaloneNames
import IdlBindings.Proofs.Generation.Confinement
import IdlBindings.Proofs.Text.BlankLines
import IdlBindings.Proofs.Naming.Segmentation
import IdlBindings.Proofs.Registry.AncestorWalk

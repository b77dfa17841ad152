import TestDispatch.Arithmetic
import TestDispatch.Classfile.Encode
import TestDispatch.Classfile.Header
import TestDispatch.Cli.Completion
import TestDispatch.Cli.Grammar
import TestDispatch.Cli.Help
import TestDispatch.Cli.Request
import TestDispatch.Cli.Session
import TestDispatch.Config.Error
import TestDispatch.Config.Settings
import TestDispatch.Fs.Error
import TestDispatch.Fs.Tree
import TestDispatch.Glob.Braces
import TestDispatch.Glob.Match
import TestDispatch.Glob.Pattern
import TestDispatch.Json.Float
import TestDispatch.Json.Read
import TestDispatch.Json.Value
import TestDispatch.Main
import TestDispatch.Path
import TestDispatch.Project.Artifact
import TestDispatch.Project.Discovery
import TestDispatch.Project.Error
import TestDispatch.Project.Model
import TestDispatch.Project.Module
import TestDispatch.Project.Scaffold
import TestDispatch.Proofs.Classfile.Layout
import TestDispatch.Proofs.Classfile.Prefix
import TestDispatch.Proofs.Config.Load
import TestDispatch.Proofs.Except
import TestDispatch.Proofs.Fs.Order
import TestDispatch.Proofs.Fs.Relative
import TestDispatch.Proofs.Fs.Remove
import TestDispatch.Proofs.Fs.Resolve
import TestDispatch.Proofs.Fs.Walk
import TestDispatch.Proofs.Fs.Write
import TestDispatch.Proofs.Glob.Braces
import TestDispatch.Proofs.Glob.Class
import TestDispatch.Proofs.Glob.Match
import TestDispatch.Proofs.Glob.Shell
import TestDispatch.Proofs.Project.Discover
import TestDispatch.Proofs.Project.Fields
import TestDispatch.Proofs.Project.Load
import TestDispatch.Proofs.Project.Select
import TestDispatch.Proofs.Selection.Chain
import TestDispatch.Proofs.Sort
import TestDispatch.Proofs.Task.Classpath
import TestDispatch.Proofs.Task.Naming
import TestDispatch.Proofs.Task.Files
import TestDispatch.Proofs.Task.Package
import TestDispatch.Proofs.Task.Pipeline
import TestDispatch.Proofs.Task.Shipping
import TestDispatch.Proofs.Task.Trace
import TestDispatch.Proofs.Tool.Tail
import TestDispatch.Selection.Filter
import TestDispatch.Shell.Arith
import TestDispatch.Shell.Condition
import TestDispatch.Shell.Exec
import TestDispatch.Shell.Format
import TestDispatch.Shell.Image
import TestDispatch.Shell.Lex
import TestDispatch.Shell.Parse
import TestDispatch.Shell.Pattern
import TestDispatch.Shell.Process
import TestDispatch.Shell.Syntax
import TestDispatch.Shell.Utility
import TestDispatch.Sort
import TestDispatch.Task.Error
import TestDispatch.Task.Event
import TestDispatch.Task.Manifest
import TestDispatch.Task.Package
import TestDispatch.Task.Run
import TestDispatch.Task.Tools
import TestDispatch.Text.Utf8
import TestDispatch.Toml.Document
import TestDispatch.Toml.Lexical
import TestDispatch.Toml.Write
import TestDispatch.Tool.Invocation
import TestDispatch.Tool.Output
import TestDispatch.Url.Host
import TestDispatch.Url.Parse
import TestDispatch.Proofs.Text.Utf8
import TestDispatch.Proofs.Json.Grammar
import TestDispatch.Proofs.Json.Bytes
import TestDispatch.Proofs.Json.ReadString
import TestDispatch.Proofs.Json.ReadObject
import TestDispatch.Proofs.Json.SortedMap
import TestDispatch.Proofs.Json.Write
import TestDispatch.Json.Decode
import TestDispatch.Proofs.Json.Decode
import TestDispatch.Proofs.Task.ManifestFile
import TestDispatch.Proofs.Path.Components

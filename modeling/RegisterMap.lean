import RegisterMap.Access
import RegisterMap.Accessors
import RegisterMap.Accessors.Text
import RegisterMap.AddressCheck
import RegisterMap.AddressMap
import RegisterMap.Artifact
import RegisterMap.Bindings
import RegisterMap.Bindings.Text
import RegisterMap.BitRun
import RegisterMap.Build
import RegisterMap.BuildSpec
import RegisterMap.CommandLine
import RegisterMap.CommandLine.Arguments
import RegisterMap.Compile
import RegisterMap.Description
import RegisterMap.Description.Reading
import RegisterMap.Description.Schema
import RegisterMap.Document.Decoding
import RegisterMap.Document.JsonText
import RegisterMap.Document.Node
import RegisterMap.Document.Problem
import RegisterMap.Document.Reading
import RegisterMap.Document.Schema
import RegisterMap.Document.TomlText
import RegisterMap.Document.TomlText.Moments
import RegisterMap.Document.TomlText.Numbers
import RegisterMap.Document.TomlText.Strings
import RegisterMap.Document.TomlText.Tables
import RegisterMap.Document.TomlText.Values
import RegisterMap.Dump
import RegisterMap.Failure
import RegisterMap.Field
import RegisterMap.FieldCheck
import RegisterMap.FileSystem
import RegisterMap.Header
import RegisterMap.Header.Text
import RegisterMap.Host
import RegisterMap.Json
import RegisterMap.Layout
import RegisterMap.Line
import RegisterMap.Main
import RegisterMap.Manual
import RegisterMap.Manual.Text
import RegisterMap.Name
import RegisterMap.Name.Styles
import RegisterMap.Numeral
import RegisterMap.Numeral.Binary64
import RegisterMap.Numeral.Literal
import RegisterMap.Numeral.Reading
import RegisterMap.Path
import RegisterMap.Proofs.Acceptance
import RegisterMap.Proofs.AccessorNumbers
import RegisterMap.Proofs.AccessorScope
import RegisterMap.Proofs.Addresses
import RegisterMap.Proofs.AlikeLines
import RegisterMap.Proofs.BindingNumbers
import RegisterMap.Proofs.BindingScope
import RegisterMap.Proofs.BitTiling
import RegisterMap.Proofs.BitViews
import RegisterMap.Proofs.Bounds
import RegisterMap.Proofs.BuildEffect
import RegisterMap.Proofs.BuildInputs
import RegisterMap.Proofs.CaseFolding
import RegisterMap.Proofs.Checking
import RegisterMap.Proofs.ClassBodies
import RegisterMap.Proofs.CommentLines
import RegisterMap.Proofs.Compiled
import RegisterMap.Proofs.ConstantTypes
import RegisterMap.Proofs.DeclarationOrder
import RegisterMap.Proofs.Descriptions
import RegisterMap.Proofs.Docstrings
import RegisterMap.Proofs.DumpNumbers
import RegisterMap.Proofs.DumpRecovery
import RegisterMap.Proofs.Entries
import RegisterMap.Proofs.EntryRules
import RegisterMap.Proofs.FieldBits
import RegisterMap.Proofs.FieldLayout
import RegisterMap.Proofs.FieldMethods
import RegisterMap.Proofs.FileContents
import RegisterMap.Proofs.FileFrame
import RegisterMap.Proofs.FirstViolation
import RegisterMap.Proofs.FixedWidth
import RegisterMap.Proofs.FixedWidthChecks
import RegisterMap.Proofs.FreshBuild
import RegisterMap.Proofs.GenuineViolation
import RegisterMap.Proofs.HeaderMacros
import RegisterMap.Proofs.HeaderMembers
import RegisterMap.Proofs.HeaderNumbers
import RegisterMap.Proofs.HeaderScope
import RegisterMap.Proofs.HeaderStructs
import RegisterMap.Proofs.Items
import RegisterMap.Proofs.JsonReading
import RegisterMap.Proofs.JsonScalars
import RegisterMap.Proofs.Leeway
import RegisterMap.Proofs.LineReading
import RegisterMap.Proofs.Literals
import RegisterMap.Proofs.LowerCase
import RegisterMap.Proofs.ManualHeadings
import RegisterMap.Proofs.ManualSections
import RegisterMap.Proofs.ManualTables
import RegisterMap.Proofs.Modifiers
import RegisterMap.Proofs.NameForms
import RegisterMap.Proofs.NormalForms
import RegisterMap.Proofs.NumberTable
import RegisterMap.Proofs.Numerals
import RegisterMap.Proofs.Preprocessing
import RegisterMap.Proofs.PropertyLines
import RegisterMap.Proofs.Recompilation
import RegisterMap.Proofs.RecordDecoding
import RegisterMap.Proofs.RegisterWord
import RegisterMap.Proofs.ReservedWords
import RegisterMap.Proofs.Respelling
import RegisterMap.Proofs.RewordedCode
import RegisterMap.Proofs.RewordedFiles
import RegisterMap.Proofs.Rewording
import RegisterMap.Proofs.Rules
import RegisterMap.Proofs.Runs
import RegisterMap.Proofs.SameNumbers
import RegisterMap.Proofs.Scopes
import RegisterMap.Proofs.SlotLine
import RegisterMap.Proofs.SlotNames
import RegisterMap.Proofs.Sorting
import RegisterMap.Proofs.SplicedLines
import RegisterMap.Proofs.StructLayout
import RegisterMap.Proofs.SymbolScopes
import RegisterMap.Proofs.TextLines
import RegisterMap.Proofs.Tiling
import RegisterMap.Proofs.Words
import RegisterMap.Register
import RegisterMap.Symbol
import RegisterMap.Target
import RegisterMap.Target.Schema
import RegisterMap.Text.Blank
import RegisterMap.Text.CaseTable
import RegisterMap.Text.Hidden
import RegisterMap.Text.LetterCase
import RegisterMap.Text.Quoted
import RegisterMap.Violation
import RegisterMap.Word

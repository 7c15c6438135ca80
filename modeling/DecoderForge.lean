import DecoderForge.Loading.Decoder
import DecoderForge.Main
import DecoderForge.Proofs.Meaning.Discriminator
import DecoderForge.Proofs.Meaning.Preservation
import DecoderForge.Proofs.Module.Imports
import DecoderForge.Proofs.Compile.Walk
import DecoderForge.Proofs.Module.Run
import DecoderForge.Proofs.Module.Skips
import DecoderForge.Proofs.Compile.References
import DecoderForge.Proofs.Symbols
import DecoderForge.Proofs.Module.LoadOrder
import DecoderForge.Proofs.Module.Names
import DecoderForge.Proofs.Compile.Fields
import DecoderForge.Compile.InPlace
import DecoderForge.Proofs.Compile.InPlace
import DecoderForge.Proofs.Compile.Effect
import DecoderForge.Proofs.Module.ReferenceReports
import DecoderForge.Proofs.Module.Separate
import DecoderForge.Proofs.Json.StringToken
import DecoderForge.Proofs.Number.Text
import DecoderForge.Proofs.TypeScript.Word
import DecoderForge.Proofs.TypeScript.Number
import DecoderForge.Proofs.TypeScript.Expr
import DecoderForge.Proofs.TypeScript.Item
import DecoderForge.Proofs.TypeScript.Module
import DecoderForge.Proofs.Compile.Grammar
import DecoderForge.Proofs.Module.TopLevel
import DecoderForge.Proofs.Module.Layout
import DecoderForge.Proofs.TypeScript.Ending
import DecoderForge.Proofs.Compile.Assembly
import DecoderForge.Proofs.TypeScript.Reading
import DecoderForge.Proofs.TypeScript.ObjectLiteral
import DecoderForge.Proofs.Loading.Descriptor
import DecoderForge.Proofs.Loading.Decoder
import DecoderForge.Proofs.Compile.Members
import DecoderForge.Proofs.FileTree.Write
import DecoderForge.Proofs.CommandLine.Run
import DecoderForge.Proofs.CommandLine.Input
import DecoderForge.Proofs.Loading.Parts
import DecoderForge.Proofs.Loading.Document
import DecoderForge.Proofs.Loading.Simulation
import DecoderForge.Proofs.Loading.Lift
import DecoderForge.Proofs.Loading.Agreement
import DecoderForge.Proofs.Loading.KeyOrder
import DecoderForge.Proofs.Loading.NumericLiteral
import DecoderForge.Proofs.Json.Grammar
import DecoderForge.Proofs.Json.NumberToken
import DecoderForge.Proofs.Json.StringBody
import DecoderForge.Proofs.Json.Passing
import DecoderForge.Proofs.Json.Extent
import DecoderForge.Proofs.Loading.Unfinished
import DecoderForge.Proofs.Loading.Extent
import DecoderForge.Proofs.Loading.LiteralText
import DecoderForge.Proofs.NodePath
import DecoderForge.Proofs.Descriptor.Places
import DecoderForge.Proofs.Compile.Reported
import DecoderForge.Proofs.Module.Places
import DecoderForge.Proofs.TypeScript.Indentation

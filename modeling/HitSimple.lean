import HitSimple.Standard.Integer
import HitSimple.View
import HitSimple.Operator
import HitSimple.Sema.ConstantFolding
import HitSimple.Sema.Folding
import HitSimple.Codegen.Emit
import HitSimple.Codegen.InstructionMeaning
import HitSimple.Codegen.OperatorMeaning
import HitSimple.Codegen.AssignmentValue
import HitSimple.Codegen.WidthCoherence
import HitSimple.Compat.Scoping
import HitSimple.Format.Agreement
import HitSimple.Safety.Divergence
import HitSimple.Safety.ForLoop
import HitSimple.Safety.TryCatch
import HitSimple.Safety.Join
import HitSimple.Safety.CallSoundness
import HitSimple.Sema.CallAcceptance
import HitSimple.Codegen.ArgumentPassing
import HitSimple.Sema.TemplateOrder
import HitSimple.Sema.OverloadKeys
import HitSimple.Sema.JumpTargets
import HitSimple.Codegen.ScopeExecution
import HitSimple.Parser.Grouping
import HitSimple.Registry.StringOutcomes
import HitSimple.Registry.Completeness
import HitSimple.Lexer.NumberTokens
import HitSimple.Lexer.QuotedTokens
import HitSimple.Scan.Protocol
import HitSimple.CCompat.RoundTrip
import HitSimple.ParserContext.Ternary
import HitSimple.Preprocessor.BareHashes
import HitSimple.Sema.MemberBounds
import HitSimple.CCompat.ConstantDiagnostics
import HitSimple.CCompat.TypeIdentity
import HitSimple.CCompat.LayoutLowering
import HitSimple.Rebinding.Completeness
import HitSimple.Overrides.Atomicity
import HitSimple.Floating.Half
import HitSimple.Scan.Integers
import HitSimple.Floating.Decimal
import HitSimple.Floating.Products
import HitSimple.Floating.Conversions
import HitSimple.CAbi.Packing
import HitSimple.Codegen.StringStores
import HitSimple.Codegen.MissingReturn
import HitSimple.Codegen.CheckElision
import HitSimple.Print.RoundTrip
import HitSimple.Floating.Sums
import HitSimple.Registry.Files
import HitSimple.Lexer.Coverage
import HitSimple.Diagnostic.Json

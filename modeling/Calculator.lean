import Calculator.Arguments
import Calculator.Console
import Calculator.Eval
import Calculator.Eval.Exact
import Calculator.Eval.Visit
import Calculator.Expr
import Calculator.Expr.Grammar
import Calculator.Expr.Names
import Calculator.Failure
import Calculator.Files
import Calculator.Help
import Calculator.History
import Calculator.Limits
import Calculator.Literal
import Calculator.Main
import Calculator.Operator
import Calculator.Parser
import Calculator.Parser.Consumed
import Calculator.Parser.Error
import Calculator.Program
import Calculator.Proofs.Literals
import Calculator.Proofs.ParserState
import Calculator.Proofs.Tokenizing
import Calculator.Session
import Calculator.Session.Command
import Calculator.Settings
import Calculator.Store
import Calculator.Text.Blank
import Calculator.Text.Case
import Calculator.Text.Digit
import Calculator.Text.Lines
import Calculator.Text.Printable
import Calculator.Text.Quoted
import Calculator.Token
import Calculator.Token.Lexeme
import Calculator.Token.Reader
import Calculator.Token.Spelling
import Calculator.Word
import Calculator.Proofs.ParserSoundness
import Calculator.Proofs.AcceptedLanguage
import Calculator.Proofs.ParserCompleteness
import Calculator.Proofs.Nesting
import Calculator.Proofs.WriteLog
import Calculator.Proofs.ExactArithmetic
import Calculator.Proofs.SessionStore
import Calculator.Proofs.StackInvariant
import Calculator.Proofs.EarliestError
import Calculator.Proofs.Reading
import Calculator.Proofs.LexemeSpans
import Calculator.Proofs.ErrorKinds
import Calculator.Proofs.AssignmentTargets
import Calculator.Proofs.Noninterference
import Calculator.Proofs.Respacing
import Calculator.Proofs.Blanks
import Calculator.Proofs.SessionReplies
import Calculator.Proofs.ExpressionLines
import Calculator.Proofs.OneShot
import Calculator.Proofs.GroupContext
import Calculator.Proofs.NestingLimit
import Calculator.Proofs.SilentLines
import Calculator.Proofs.HistoryLines
import Calculator.Proofs.DefiniteAssignment
import Calculator.Proofs.OperandOrder
import Calculator.Proofs.GroupTransparency
import Calculator.Proofs.EndOfText
import Calculator.Proofs.TruncatedDivision
import Calculator.Proofs.StoreViews
import Calculator.Proofs.ConversationRounds
import Calculator.Proofs.ReadingOnDemand
import Calculator.Proofs.VariableListing
import Calculator.Proofs.GivenPairs
import Calculator.Proofs.SettingsLayers
import Calculator.Proofs.SettingsReadBack
import Calculator.Proofs.OneShotStreams
import Calculator.Proofs.LiteralConversion

import FilterQuery.CommandLine.Run
import FilterQuery.Main
import FilterQuery.Proofs.ClauseLeaves
import FilterQuery.Proofs.ParenthesisCount
import FilterQuery.Proofs.ClauseParentheses
import FilterQuery.Proofs.Outcome
import FilterQuery.Proofs.WrittenValues
import FilterQuery.Proofs.CompiledLeaves
import FilterQuery.Proofs.BalancedQueries
import FilterQuery.Proofs.SpelledLiterals
import FilterQuery.Proofs.ConditionGrammar
import FilterQuery.Proofs.QueryReading
import FilterQuery.Proofs.ClauseReading
import FilterQuery.Proofs.CompiledMeaning
import FilterQuery.Proofs.NestingLimit
import FilterQuery.Proofs.StrippedQueries
import FilterQuery.Proofs.SeparatingSpaces
import FilterQuery.Proofs.QuotedText
import FilterQuery.Proofs.RefusedConditions
import FilterQuery.Proofs.BatchLines
import FilterQuery.Proofs.ViableTokens
import FilterQuery.Proofs.FirstRefusal
import FilterQuery.Proofs.StatementOpening
import FilterQuery.Proofs.MergedLeaves
import FilterQuery.Proofs.MergedLength
import FilterQuery.Proofs.EscapedValues
import FilterQuery.Proofs.TagSets
import FilterQuery.Proofs.OuterParentheses
import FilterQuery.Proofs.ListedValues
import FilterQuery.Proofs.Wildcards
import FilterQuery.Proofs.FieldNames
import FilterQuery.Proofs.NumericLeaves
import FilterQuery.Proofs.SchemaHistory
import FilterQuery.Proofs.FieldOverrides
import FilterQuery.Proofs.LookedUpFields
import FilterQuery.Proofs.IntegerLiterals

import InfixArithmetic.BinaryGrid
import InfixArithmetic.Binary64
import InfixArithmetic.DecimalLiterals
import InfixArithmetic.ShortestDecimals
import InfixArithmetic.NumberText
import InfixArithmetic.BlankText
import InfixArithmetic.UnprintedCharacters
import InfixArithmetic.QuotedCharacters
import InfixArithmetic.Tokens
import InfixArithmetic.Faults
import InfixArithmetic.Scanning
import InfixArithmetic.Grammar
import InfixArithmetic.Evaluation
import InfixArithmetic.Sessions
import InfixArithmetic.ByteLines
import InfixArithmetic.GraphemeBreaks
import InfixArithmetic.LineEditing
import InfixArithmetic.Transcripts
import InfixArithmetic.ControlSequences
import InfixArithmetic.CommandLine
import InfixArithmetic.Main
import InfixArithmetic.Proofs.RuleEquations
import InfixArithmetic.Proofs.Derivations
import InfixArithmetic.Proofs.PendingOpeners
import InfixArithmetic.Proofs.Sentences
import InfixArithmetic.Proofs.MaximalMunch
import InfixArithmetic.Proofs.CharacterClasses
import InfixArithmetic.Proofs.Screening
import InfixArithmetic.Proofs.CallHistories
import InfixArithmetic.Proofs.ReadingSentences
import InfixArithmetic.Proofs.SignedZeros
import InfixArithmetic.Proofs.Substitution
import InfixArithmetic.Proofs.Rounding
import InfixArithmetic.Proofs.DecimalTexts
import InfixArithmetic.Proofs.NearestMagnitudes
import InfixArithmetic.Proofs.DecimalSpacings
import InfixArithmetic.Proofs.PrintedValues
import InfixArithmetic.Proofs.WholeNumbers
import InfixArithmetic.Proofs.IntegerExpressions
import InfixArithmetic.Proofs.PlainReplies
import InfixArithmetic.Proofs.StreamLines
import InfixArithmetic.Proofs.HandledLines
import InfixArithmetic.Proofs.TakenClusters
import InfixArithmetic.Proofs.PromptedSessions
import InfixArithmetic.Proofs.SingleExpressions
import InfixArithmetic.Proofs.JoinedTexts
import InfixArithmetic.Proofs.NumberLiterals
import InfixArithmetic.Proofs.ShortestTexts
import InfixArithmetic.Proofs.Procedures
import InfixArithmetic.Proofs.FollowedRules
import InfixArithmetic.Proofs.CallDepth
import InfixArithmetic.Proofs.CallEffects
import InfixArithmetic.Proofs.RecordedDivisions
import InfixArithmetic.Proofs.LeadingWords

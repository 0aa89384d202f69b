import FluentPattern.Builder.Step
import FluentPattern.Proofs.Offsets
import FluentPattern.Proofs.Readings
import FluentPattern.Proofs.LiteralGrammar
import FluentPattern.Proofs.Tokens
import FluentPattern.Proofs.ClassTokens
import FluentPattern.Proofs.NodeReading
import FluentPattern.Proofs.SourceReading
import FluentPattern.Proofs.Faithfulness
import FluentPattern.Proofs.Ends
import FluentPattern.Proofs.Preference
import FluentPattern.Proofs.Repetitions
import FluentPattern.Proofs.Matching
import FluentPattern.Proofs.Planning
import FluentPattern.Proofs.Searching
import FluentPattern.Proofs.Compiling
import FluentPattern.Proofs.TextCompiling
import FluentPattern.Proofs.LiteralMatching
import FluentPattern.Proofs.TakingApart
import FluentPattern.Proofs.DisplayedLiterals
import FluentPattern.Proofs.GroupReading
import FluentPattern.Proofs.Sequences
import FluentPattern.Proofs.Spelling
import FluentPattern.Proofs.TokenSeams
import FluentPattern.Proofs.PatternUnits
import FluentPattern.Proofs.FlatRanges
import FluentPattern.Proofs.OpenClasses
import FluentPattern.Proofs.StraightBounds
import FluentPattern.Proofs.NodeSoundness
import FluentPattern.Proofs.NodeFaults
import FluentPattern.Proofs.TextBuilders
import FluentPattern.Proofs.StepRuns
import FluentPattern.Proofs.FlagRuns
import FluentPattern.Proofs.Progress
import FluentPattern.Proofs.Replacing
import FluentPattern.Proofs.Words
import FluentPattern.Proofs.ClassMatching
import FluentPattern.Proofs.Substitution
import FluentPattern.Proofs.RangeMatching
import FluentPattern.Proofs.GroupNames
import FluentPattern.Proofs.GroupLists
import FluentPattern.Proofs.GroupCaptures
import FluentPattern.Proofs.GroupNumbers
import FluentPattern.Proofs.FirstMatches
import FluentPattern.Proofs.TextChoices
import FluentPattern.Proofs.TextRepetitions
import FluentPattern.Proofs.TextGaps
import FluentPattern.Proofs.TextLookaheads
import FluentPattern.Proofs.Composition
import FluentPattern.Proofs.FlagChecks
import FluentPattern.Proofs.LineBreaks
import FluentPattern.Proofs.Escaping
import FluentPattern.Proofs.ShownPatterns
import FluentPattern.Proofs.Positions

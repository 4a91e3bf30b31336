import TurtleScript.Main
import TurtleScript.Proofs.Direct
import TurtleScript.Proofs.Lifecycle
import TurtleScript.Proofs.Moments
import TurtleScript.Proofs.Following
import TurtleScript.Proofs.Transparency
import TurtleScript.Proofs.Derivation
import TurtleScript.Proofs.ParserSoundness
import TurtleScript.Proofs.ParserCompleteness
import TurtleScript.Proofs.PhraseCompleteness
import TurtleScript.Proofs.TreeHeight
import TurtleScript.Proofs.LawfulSessions
import TurtleScript.Proofs.Laws
import TurtleScript.Proofs.Effects
import TurtleScript.Proofs.Glide
import TurtleScript.Proofs.Settling
import TurtleScript.Proofs.LibraryNames
import TurtleScript.Proofs.Carrying
import TurtleScript.Proofs.Halting
import TurtleScript.Proofs.Limits
import TurtleScript.Proofs.Killing
import TurtleScript.Proofs.Accounting
import TurtleScript.Proofs.Lines
import TurtleScript.Proofs.FailureReports
import TurtleScript.Proofs.EnteringLines
import TurtleScript.Proofs.TextLayout
import TurtleScript.Proofs.TurtleSpeed
import TurtleScript.Proofs.TreeSpans
import TurtleScript.Proofs.LexicalScopes
import TurtleScript.Proofs.LexicalMachine
import TurtleScript.Proofs.MarkedSessions
import TurtleScript.Proofs.FailurePlaces
import TurtleScript.Proofs.Frameless
import TurtleScript.Proofs.HollowScopes
import TurtleScript.Proofs.SideBySide
import TurtleScript.Proofs.ForLoops
import TurtleScript.Proofs.JumpingTurtle
import TurtleScript.Proofs.LoopLimit
import TurtleScript.Proofs.ParserLaws
import TurtleScript.Proofs.Charging
import TurtleScript.Proofs.EndMarks
import TurtleScript.Proofs.Rounds
import TurtleScript.Proofs.Robustness
import TurtleScript.Proofs.Laying
import TurtleScript.Proofs.LaidTrees
import TurtleScript.Proofs.ExactSpans
import TurtleScript.Proofs.RefusedLines
import TurtleScript.Proofs.ScopeForests
import TurtleScript.Proofs.Assignments
import TurtleScript.Proofs.TidyStores
import TurtleScript.Proofs.Snapshots
import TurtleScript.Proofs.NewNames
import TurtleScript.Proofs.FailingCalls
import TurtleScript.Proofs.SignedPositions
import TurtleScript.Proofs.ShownArrays
import TurtleScript.Proofs.RestoredNesting

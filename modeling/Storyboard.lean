import Storyboard.CommandLine.Disk
import Storyboard.Main
import Storyboard.Sampling.Reel
import Storyboard.Sampling.Refusal
import Storyboard.Sampling.Tank
import Storyboard.Proofs.Double.Rounding
import Storyboard.Proofs.Double.Whole
import Storyboard.Proofs.Script.Grammar
import Storyboard.Proofs.Script.Scanned
import Storyboard.Proofs.Script.Loops
import Storyboard.Proofs.Script.Elements
import Storyboard.Proofs.Script.Events
import Storyboard.Proofs.Script.Scenes
import Storyboard.Proofs.Script.Derivation
import Storyboard.Proofs.Sampling.Course
import Storyboard.Proofs.Timeline.LastFade
import Storyboard.Proofs.Sampling.Steady
import Storyboard.Proofs.Sampling.Stopping
import Storyboard.Proofs.Fingerprint.Injective
import Storyboard.Proofs.Sampling.Skipping
import Storyboard.Proofs.Script.Spelling
import Storyboard.Proofs.Script.Pieces
import Storyboard.Proofs.Source.Places
import Storyboard.Proofs.Script.Lexing
import Storyboard.Proofs.Double.Order
import Storyboard.Proofs.Script.Sound
import Storyboard.Proofs.Sampling.Accepted
import Storyboard.Proofs.Script.Lookahead
import Storyboard.Proofs.Script.Completion
import Storyboard.Proofs.Script.Endings
import Storyboard.Proofs.Script.Offending
import Storyboard.Proofs.Timeline.Warnings
import Storyboard.Proofs.Exchange.Programs
import Storyboard.Proofs.Sampling.Filling
import Storyboard.Proofs.Sampling.Mirrored
import Storyboard.Proofs.Script.Passes
import Storyboard.Proofs.Script.Padding
import Storyboard.Proofs.Script.Continued
import Storyboard.Proofs.Script.ErrorText
import Storyboard.Proofs.Script.Carets
import Storyboard.Proofs.Double.Arithmetic
import Storyboard.Proofs.Rate.FrameCount
import Storyboard.Proofs.Timeline.Bounds
import Storyboard.Proofs.Timeline.Outside
import Storyboard.Proofs.Sampling.Still
import Storyboard.Proofs.ByteOrder
import Storyboard.Proofs.Timeline.Report
import Storyboard.Proofs.Double.Spacing
import Storyboard.Proofs.Double.Monotone
import Storyboard.Proofs.Rate.Covering
import Storyboard.Proofs.Timeline.Progress
import Storyboard.Proofs.Timeline.Finished
import Storyboard.Proofs.Timeline.Endless
import Storyboard.Proofs.Double.Drift
import Storyboard.Proofs.Rate.Returning
import Storyboard.Proofs.Sampling.Unplayable
import Storyboard.Proofs.Script.Hidden
import Storyboard.Proofs.CommandLine.Quiet
import Storyboard.Proofs.CommandLine.Emptied
import Storyboard.Proofs.Script.Cursor
import Storyboard.Proofs.Script.Halting

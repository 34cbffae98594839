import StoryGrammar.Demo.Session
import StoryGrammar.Main
import StoryGrammar.Proofs.Expansion.Sequence
import StoryGrammar.Proofs.Grammar.AdHoc
import StoryGrammar.Proofs.Grammar.Admitted
import StoryGrammar.Proofs.Grammar.Endless
import StoryGrammar.Proofs.Grammar.Escaped
import StoryGrammar.Proofs.Grammar.Precedence
import StoryGrammar.Proofs.Grammar.Replay
import StoryGrammar.Proofs.Random.Seeded
import StoryGrammar.Proofs.Sampling.Repeat
import StoryGrammar.Proofs.Template.Backtrack
import StoryGrammar.Proofs.Template.Fault
import StoryGrammar.Proofs.Template.Pairs
import StoryGrammar.Proofs.Template.Partition
import StoryGrammar.Proofs.Template.Shape

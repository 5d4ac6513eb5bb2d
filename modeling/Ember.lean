import Ember.Cli
import Ember.Main
import Ember.Session
import Ember.Settings.Load
import Ember.Yaml
import Ember.Proofs.Eval.Recursion
import Ember.Proofs.Eval.Footprint
import Ember.Proofs.Eval.Bounds
import Ember.Proofs.Eval.Safe
import Ember.Proofs.Grammar.Accepts
import Ember.Proofs.Grammar.FirstProblem
import Ember.Proofs.Grammar.Rendering
import Ember.Proofs.Grammar.Roundtrip
import Ember.Proofs.Grammar.Survey
import Ember.Proofs.Session.Calculation
import Ember.Proofs.Session.Deeper
import Ember.Proofs.Session.Ends
import Ember.Proofs.Session.Isomorphic
import Ember.Proofs.Session.Joined
import Ember.Proofs.Session.Layout
import Ember.Proofs.Heap.Matching
import Ember.Proofs.Depth
import Ember.Proofs.Heap.Resolution
import Ember.Proofs.Node.Spans
import Ember.Proofs.Node.Dump
import Ember.Proofs.Token.Longest
import Ember.Proofs.Token.Exact
import Ember.Proofs.Grammar.Limit
import Ember.Proofs.Node.Placed
import Ember.Proofs.Grammar.Nested
import Ember.Proofs.Eval.Blame
import Ember.Proofs.Session.Quoted
import Ember.Proofs.Session.Truncated
import Ember.Proofs.Settings.Loaded
import Ember.Proofs.Settings.Layers
import Ember.Proofs.Settings.Refused
import Ember.Proofs.Session.Interactive
import Ember.Proofs.Session.Tower
import Ember.Proofs.Token.Lines
import Ember.Proofs.Parse.Ordered
import Ember.Proofs.Grammar.Terminates
import Ember.Proofs.Session.Origin
import Ember.Proofs.Eval.Counting
import Ember.Proofs.Session.Unmentioned
import Ember.Proofs.Session.Flat
import Ember.Proofs.Session.Ladder

namespace StoryGrammar

-- How one of several candidates is picked.
inductive Distribution where
  -- Each equally often, with replacement.
  | uniform
  -- In proportion to the weights, with replacement.
  | weighted
  -- Without replacement, until nothing is left.
  | pop
  -- Through a random order, and through another one when it is used up.
  | shuffle
  -- Without replacement, each as many times as its weight says.
  | popWeighted
deriving DecidableEq, Repr, Inhabited

namespace Distribution

def all : List Distribution := [.uniform, .weighted, .pop, .shuffle, .popWeighted]

def name : Distribution → String
  | .uniform => "uniform"
  | .weighted => "weighted"
  | .pop => "pop"
  | .shuffle => "shuffle"
  | .popWeighted => "popWeighted"

def ofName? (name : String) : Option Distribution := all.find? (·.name == name)

-- The name inside the text of a value.
def label : Distribution → String
  | .uniform => "Uniform"
  | .weighted => "Weighted"
  | .pop => "Pop"
  | .shuffle => "Shuffle"
  | .popWeighted => "PopWeighted"

-- Under the other distributions all candidates weigh the same.
def usesWeights : Distribution → Bool
  | .weighted | .popWeighted => true
  | _ => false

theorem mem_all (d : Distribution) : d ∈ all := by cases d <;> decide

theorem ofName?_name (d : Distribution) : ofName? d.name = some d := by cases d <;> decide

theorem name_of_ofName? {name : String} {d : Distribution} (h : ofName? name = some d) :
    d.name = name := by
  simpa using List.find?_some h

end Distribution

end StoryGrammar

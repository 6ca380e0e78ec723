set_option autoImplicit false

/-! # Keywords

A step starts with one of six words, a group of lines with one of eight, some of which mean the
same group. -/

namespace FeatureFile

/-- The word that opens a step. -/
inductive StepKeyword where
  | given
  | when_
  | then_
  | and_
  | but
  | bullet
deriving DecidableEq, Repr

namespace StepKeyword

/-- Every step keyword, in the order in which they are listed to a user. -/
def all : List StepKeyword := [given, when_, then_, and_, but, bullet]

/-- How the keyword is written in a feature file. -/
def word : StepKeyword → String
  | given => "Given"
  | when_ => "When"
  | then_ => "Then"
  | and_ => "And"
  | but => "But"
  | bullet => "*"

/-- How the keyword is named in exported files; a name, unlike the word `*`. -/
def label : StepKeyword → String
  | given => "Given"
  | when_ => "When"
  | then_ => "Then"
  | and_ => "And"
  | but => "But"
  | bullet => "Bullet"

/-- The keyword written as `w`. -/
def ofWord? (w : String) : Option StepKeyword := all.find? fun keyword => keyword.word == w

/-- Keywords are written differently, so a word has one meaning. -/
theorem ofWord?_word (keyword : StepKeyword) : ofWord? keyword.word = some keyword := by
  cases keyword <;> rfl

end StepKeyword

/-- What a header line opens. -/
inductive GroupKeyword where
  | feature
  | background
  | scenario
  | outline
  | examples
deriving DecidableEq, Repr

namespace GroupKeyword

/-- The word a group is named by in messages. -/
def word : GroupKeyword → String
  | feature => "Feature"
  | background => "Background"
  | scenario => "Scenario"
  | outline => "Scenario Outline"
  | examples => "Examples"

/-- Every word that may stand before the colon of a header, with the group it opens. -/
def words : List (String × GroupKeyword) :=
  [("Feature", feature), ("Background", background), ("Scenario", scenario),
    ("Example", scenario), ("Scenario Outline", outline), ("Scenario Template", outline),
    ("Examples", examples), ("Scenarios", examples)]

/-- The group that the word `w` opens. -/
def ofWord? (w : String) : Option GroupKeyword := words.lookup w

theorem ofWord?_word (keyword : GroupKeyword) : ofWord? keyword.word = some keyword := by
  cases keyword <;> rfl

end GroupKeyword

end FeatureFile

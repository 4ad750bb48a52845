/-! # Keywords of tags

A tag is told by the word behind its opening delimiter. Some words begin a statement; others
go on with a construct that is open, or close it. -/

namespace Templating

/-- The statements, in the order in which the language presents them. -/
inductive Keyword where
  | call
  | letBinding
  | setBinding
  | conditional
  | loop
  | choice
  | extendTemplate
  | includeTemplate
  | importMacros
  | block
  | macroDef
  | raw
  | breakLoop
  | continueLoop
  deriving Repr, DecidableEq

namespace Keyword

/-- The word that is written for the statement. -/
def word : Keyword → String
  | call => "call"
  | letBinding => "let"
  | setBinding => "set"
  | conditional => "if"
  | loop => "for"
  | choice => "match"
  | extendTemplate => "extends"
  | includeTemplate => "include"
  | importMacros => "import"
  | block => "block"
  | macroDef => "macro"
  | raw => "raw"
  | breakLoop => "break"
  | continueLoop => "continue"

def all : List Keyword :=
  [call, letBinding, setBinding, conditional, loop, choice, extendTemplate, includeTemplate,
    importMacros, block, macroDef, raw, breakLoop, continueLoop]

theorem mem_all (keyword : Keyword) : keyword ∈ all := by
  cases keyword <;> decide

/-- The words of all statements in alphabetical order, as messages list them. -/
def sortedWords : List String :=
  (all.map word).mergeSort fun left right => left ≤ right

def ofWord? (text : String) : Option Keyword :=
  all.find? fun keyword => keyword.word == text

theorem ofWord?_word (keyword : Keyword) : ofWord? keyword.word = some keyword := by
  cases keyword <;> decide

theorem ofWord?_eq_some_iff {text : String} {keyword : Keyword} :
    ofWord? text = some keyword ↔ text = keyword.word := by
  constructor
  · intro found
    unfold ofWord? at found
    have same := List.find?_some found
    exact (beq_iff_eq.mp same).symm
  · rintro rfl
    exact ofWord?_word keyword

end Keyword

/-- The words that go on with an open construct or close it. -/
def followingWords : List String :=
  ["else", "when", "endif", "endfor", "endmatch", "endblock", "endmacro", "endraw"]

end Templating

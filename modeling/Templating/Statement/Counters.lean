/-! # Counters of a parse

A parse counts the loops whose bodies are open, since `break` and `continue` belong inside
one, and the bodies that are open, since their nesting is limited. Both counters are raised
around a part of the parse and lowered after it, whatever became of that part. -/

namespace Templating

structure Counters where
  loopDepth : Int := 0
  depth : Int := 0
  deriving Repr, DecidableEq

namespace Counters

/-- The counters at the beginning of a parse. -/
def zero : Counters := {}

def enterLoop (counters : Counters) : Counters :=
  { counters with loopDepth := counters.loopDepth + 1 }

def leaveLoop (counters : Counters) : Counters :=
  { counters with loopDepth := counters.loopDepth - 1 }

def enterBody (counters : Counters) : Counters :=
  { counters with depth := counters.depth + 1 }

def leaveBody (counters : Counters) : Counters :=
  { counters with depth := counters.depth - 1 }

/-- The body of a loop is open. -/
def inLoop (counters : Counters) : Bool :=
  0 < counters.loopDepth

/-- More bodies are open than the limit admits. -/
def tooDeep (limit : Nat) (counters : Counters) : Bool :=
  limit < counters.depth

/-- Runs a computation on the counters inside a loop. -/
def inLoopDo {α : Type} (run : Counters → α × Counters) (counters : Counters) : α × Counters :=
  let (result, after) := run counters.enterLoop
  (result, after.leaveLoop)

/-- Runs a computation on the counters inside a body. -/
def inBodyDo {α : Type} (run : Counters → α × Counters) (counters : Counters) : α × Counters :=
  let (result, after) := run counters.enterBody
  (result, after.leaveBody)

@[simp] theorem leaveLoop_enterLoop (counters : Counters) :
    counters.enterLoop.leaveLoop = counters := by
  simp [enterLoop, leaveLoop]

@[simp] theorem leaveBody_enterBody (counters : Counters) :
    counters.enterBody.leaveBody = counters := by
  simp [enterBody, leaveBody]

end Counters

end Templating

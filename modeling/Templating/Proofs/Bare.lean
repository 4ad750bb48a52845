import Templating.Proofs.ScopeProgress

/-! # Nodes without bodies

Most rules for nodes yield one without a body that does not control a loop either. What such a
node is does not depend on the bodies that are open. -/

namespace Templating

variable {room : Room}

namespace Node

/-- The node has no body and does not control a loop. -/
def isBare : Node → Bool
  | text .. | comment .. | output .. | raw .. | macroCall .. | assign .. | declare ..
  | extendTemplate .. | includeTemplate .. | importMacros .. => true
  | conditional .. | loop .. | choice .. | breakLoop .. | continueLoop .. | macroDef ..
  | block .. => false

end Node

namespace Grammar

variable {α β : Type} {rule other : Grammar α} {next : α → Grammar β} {accept : α → Prop}
  {welcome : β → Prop}

/-- Every value that the rule yields is accepted. -/
def Always (accept : α → Prop) (rule : Grammar α) : Prop :=
  ∀ cursor value later, rule cursor = .matched value later → accept value

theorem Always.bind (always : ∀ value, Always welcome (next value)) :
    Always welcome (rule >>= next) := by
  intro cursor result later matched
  rcases bind_eq_matched.mp matched with ⟨value, middle, _, second⟩
  exact always value middle result later second

theorem Always.pure {value : α} (accepted : accept value) : Always accept (pure value) := by
  intro cursor result later matched
  cases matched
  exact accepted

theorem Always.orElse (first : Always accept rule) (second : Always accept other) :
    Always accept (rule <|> other) := by
  intro cursor value later matched
  rcases orElse_eq_matched.mp matched with matched | ⟨_, matched⟩
  · exact first cursor value later matched
  · exact second cursor value later matched

theorem Always.noMatch : Always accept (noMatch : Grammar α) := nofun

variable (dialect : Dialect) (opened : OpenedTag)

theorem bare_text : Always (fun node => node.isBare = true) (text dialect) := by
  refine .bind fun start => .bind fun run => ?_
  split
  · exact .noMatch
  · exact .pure rfl

theorem bare_comment : Always (fun node => node.isBare = true) (comment dialect) :=
  .bind fun _ => .bind fun _ => .bind fun _ => .bind fun _ => .bind fun _ => .pure rfl

theorem bare_output : Always (fun node => node.isBare = true) (output dialect) :=
  .bind fun _ => .bind fun _ => .bind fun _ => .bind fun _ => .bind fun _ => .bind fun _ =>
    .pure rfl

theorem bare_raw : Always (fun node => node.isBare = true) (raw dialect opened) :=
  .bind fun _ => .bind fun _ => .bind fun _ => .bind fun _ => .pure rfl

theorem bare_assignment : Always (fun node => node.isBare = true) (assignment opened) :=
  .bind fun _ => .orElse (.bind fun _ => .bind fun _ => .bind fun _ => .pure rfl)
    (.bind fun _ => .pure rfl)

theorem bare_macroCall : Always (fun node => node.isBare = true) (macroCall opened) := by
  refine .bind fun first => .bind fun second => .bind fun arguments => .bind fun right => ?_
  cases second with
  | none => exact .pure rfl
  | some second => exact .pure rfl

theorem bare_extension : Always (fun node => node.isBare = true) (extension opened) := by
  unfold extension
  split
  · exact .bind fun _ => .bind fun _ => .pure rfl
  · exact .bind fun _ => .pure rfl

theorem bare_inclusion : Always (fun node => node.isBare = true) (inclusion opened) :=
  .bind fun _ => .bind fun _ => .pure rfl

theorem bare_importation : Always (fun node => node.isBare = true) (importation opened) :=
  .bind fun _ => .bind fun _ => .bind fun _ => .bind fun _ => .pure rfl

end Grammar

end Templating

import Templating.Proofs.BodySoundness
import Templating.Proofs.PrintedBody

/-! # Templates that are printed and read again

What has been read as a template is regular, and every regular template is read back as it is
written. The trim markers of a template have no say in whether it is regular, so they may be changed
in between. -/

namespace Templating.Template

variable {room : Room}

/-- A template is regular if it is without its trim markers. -/
theorem regular_of_untrimmed {dialect : Dialect} {outside : Counters} {levels : Nat}
    {scope : List Part} {last : Bool} {template template' : Template}
    (retrimmed : template'.untrimmed = template.untrimmed)
    (regular : RegularBody dialect outside levels scope last template.body) :
    RegularBody dialect outside levels scope last template'.body := by
  have bodies : template'.body.map Node.untrimmed = template.body.map Node.untrimmed := by
    simpa [untrimmed] using congrArg Template.body retrimmed
  rw [← regularBody_map_untrimmed, bodies, regularBody_map_untrimmed]
  exact regular

/-- Whatever trim markers a template is given, it is read back from how it is printed: as the same
tree, with each marker at the edge that it is written at. -/
theorem parse_print_of_parse {source : Source} {template template' : Template}
    (parsed : parse .standard source = .ok template)
    (retrimmed : template'.untrimmed = template.untrimmed) (filename : Option String) :
    ∃ reparsed, parse .standard ⟨template'.print .standard, template'.name, filename⟩ = .ok reparsed ∧
      template'.same reparsed = true :=
  parse_print Dialect.legible_standard (regular_of_untrimmed retrimmed (regular_of_parse parsed))
    filename

/-- The loop is read without an alternative, and is printed with one to hold the markers. -/
theorem parse_print_of_parse_loop :
    let _ : Room := ⟨20⟩
    let read : Template := { body := [.loop 0 {} (.name 7 "x")
        (.range 12 .halfOpen (some (.literal 12 .number "0")) none) none
        [.output 18 {} (.var 21 "x")] ⟨some .suppress, none⟩ [] {}], name := none }
    let retrimmed : Template := { body := [.loop 0 ⟨some .suppress, none⟩ (.name 7 "x")
        (.range 12 .halfOpen (some (.literal 12 .number "0")) none) none
        [.output 18 ⟨none, some .suppress⟩ (.var 21 "x")] ⟨none, some .preserve⟩ []
          ⟨some .minimize, none⟩], name := none }
    parse .standard ⟨"\x7b% for x in 0.. %\x7d\x7b\x7b x \x7d\x7d\x7b%- endfor %\x7d", none, none⟩ =
        .ok read ∧
      retrimmed.untrimmed = read.untrimmed ∧
      retrimmed.print .standard = "\x7b%- for x in 0.. %\x7d\x7b\x7b x -\x7d\x7d" ++
        "\x7b% else +%\x7d\x7b%~ endfor %\x7d" ∧
      ∃ reparsed, parse .standard ⟨retrimmed.print .standard, none, none⟩ = .ok reparsed ∧
        retrimmed.same reparsed = true := by
  intro room read retrimmed
  have parsed : parse .standard
      ⟨"\x7b% for x in 0.. %\x7d\x7b\x7b x \x7d\x7d\x7b%- endfor %\x7d", none, none⟩ = .ok read := by
    rw [parse_eq_scoped]
    rfl
  have same : retrimmed.untrimmed = read.untrimmed := rfl
  exact ⟨parsed, same, by decide, parse_print_of_parse parsed same none⟩

end Templating.Template

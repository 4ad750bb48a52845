import Templating.Dialect.Delimiter

/-! # Dialects

A dialect is what one family of templates is written with: six delimiters, and a limit on
how deeply bodies may be nested. -/

namespace Templating

/-- Delimiters of which no opening one is the beginning of another, and a limit that admits
at least the top level. -/
structure Dialect where
  blockStart : Delimiter
  blockEnd : Delimiter
  exprStart : Delimiter
  exprEnd : Delimiter
  commentStart : Delimiter
  commentEnd : Delimiter
  maxDepth : Nat
  block_apart_expr : blockStart.Apart exprStart
  block_apart_comment : blockStart.Apart commentStart
  expr_apart_comment : exprStart.Apart commentStart
  maxDepth_pos : 0 < maxDepth
  deriving DecidableEq, Repr

namespace Dialect

/-- The dialect that is used unless another is asked for. -/
def standard : Dialect where
  blockStart := ⟨"\x7b%".toList, by decide, by decide⟩
  blockEnd := ⟨"%\x7d".toList, by decide, by decide⟩
  exprStart := ⟨"\x7b\x7b".toList, by decide, by decide⟩
  exprEnd := ⟨"\x7d\x7d".toList, by decide, by decide⟩
  commentStart := ⟨"\x7b#".toList, by decide, by decide⟩
  commentEnd := ⟨"#\x7d".toList, by decide, by decide⟩
  maxDepth := 64
  block_apart_expr := by decide
  block_apart_comment := by decide
  expr_apart_comment := by decide
  maxDepth_pos := by decide

def delimiter (dialect : Dialect) : DelimiterRole → Delimiter
  | .blockStart => dialect.blockStart
  | .blockEnd => dialect.blockEnd
  | .exprStart => dialect.exprStart
  | .exprEnd => dialect.exprEnd
  | .commentStart => dialect.commentStart
  | .commentEnd => dialect.commentEnd

/-- The delimiters that end a run of text. -/
def starts (dialect : Dialect) : List Delimiter :=
  [dialect.blockStart, dialect.commentStart, dialect.exprStart]

end Dialect

end Templating

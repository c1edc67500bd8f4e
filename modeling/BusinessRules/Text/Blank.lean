/-!
# Blank characters

Rule text and conditions are separated by the characters of the Unicode property `White_Space`:

* `isBlank` — the property, as a table of ranges;
* `trimStart`, `trimEnd`, `trim` — a text without its outer blanks;
* `cutAtBlank?` — a text cut at its first blank.

Principal result: `cutAtBlank?_eq_some` (a cut loses the one blank it is made at and nothing else).
-/

namespace BusinessRules.Text

/-- The code points of `White_Space`, as closed ranges in increasing order. -/
def blankRanges : List (Nat × Nat) :=
  [(0x0009, 0x000D), (0x0020, 0x0020), (0x0085, 0x0085), (0x00A0, 0x00A0), (0x1680, 0x1680),
   (0x2000, 0x200A), (0x2028, 0x2029), (0x202F, 0x202F), (0x205F, 0x205F), (0x3000, 0x3000)]

/-- A code point lies in one of the ranges. -/
def inRanges (ranges : List (Nat × Nat)) (code : Nat) : Bool :=
  ranges.any fun range => range.1 ≤ code && code ≤ range.2

/-- A character that separates words. -/
def isBlank (c : Char) : Bool := inRanges blankRanges c.toNat

example : blankRanges.Pairwise (fun a b => a.2 < b.1) := by decide

/-- The text from its first character that is not blank. -/
def trimStart (cs : List Char) : List Char := cs.dropWhile isBlank

/-- The text up to its last character that is not blank. -/
def trimEnd (cs : List Char) : List Char := (cs.reverse.dropWhile isBlank).reverse

/-- The text without the blanks at either end. -/
def trim (cs : List Char) : List Char := trimEnd (trimStart cs)

/-- The text before and after its first blank; `none` without one. -/
def cutAtBlank? (cs : List Char) : Option (List Char × List Char) :=
  match cs.dropWhile (fun c => !isBlank c) with
  | [] => none
  | _ :: rest => some (cs.takeWhile (fun c => !isBlank c), rest)

/-- A cut loses exactly one blank, and the part before it holds none. -/
theorem cutAtBlank?_eq_some {cs before after : List Char}
    (h : cutAtBlank? cs = some (before, after)) :
    ∃ b, isBlank b = true ∧ cs = before ++ b :: after ∧ ∀ c ∈ before, isBlank c = false := by
  unfold cutAtBlank? at h
  split at h
  · cases h
  · rename_i b rest hdrop
    simp only [Option.some.injEq, Prod.mk.injEq] at h
    obtain ⟨rfl, rfl⟩ := h
    refine ⟨b, ?_, ?_, ?_⟩
    · have hhead := List.head?_dropWhile_not (fun c => !isBlank c) cs
      rw [hdrop] at hhead
      simpa using hhead
    · rw [← hdrop, List.takeWhile_append_dropWhile]
    · intro c hc
      simpa using List.all_eq_true.1 List.all_takeWhile c hc

end BusinessRules.Text

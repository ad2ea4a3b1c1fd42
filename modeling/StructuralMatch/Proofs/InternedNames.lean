import Mathlib.Data.List.Nodup
import StructuralMatch.Name

/-!
# `Proofs.InternedNames` — names and texts stand for each other

A text has at most one name, since a name is a position in the table and the table holds one text there.
That a name is found again by its text needs that no text is in the table twice. Interning keeps it so:
only a text without a name is put into the table.

* `Interner.lookup_of_get?` leads from a text to its name and back, in any table.
* `Interner.get?_lookup` leads from a name to its text and back, in a table without repetition.
* `Interner.Distinct.internAll`: the tables that interning leads to are without repetition.
-/

namespace StructuralMatch.Interner

variable {names later : Interner} {text : String} {name : Name}

/-! ## From texts to names -/

/-- The name of a text resolves to it. -/
theorem lookup_of_get? (h : names.get? text = some name) : names.lookup name = text := by
  obtain ⟨index, hindex, rfl⟩ := Option.map_eq_some_iff.mp h
  obtain ⟨hlt, htext, -⟩ := List.idxOf?_eq_some_iff.mp hindex
  simp only [lookup, List.getElem?_eq_getElem hlt, htext, Option.getD_some]

/-- Different texts have different names. -/
theorem eq_of_get?_eq {other : String} (h : names.get? text = some name)
    (hother : names.get? other = some name) : text = other := by
  rw [← lookup_of_get? h, lookup_of_get? hother]

/-! ## From names to texts -/

/-- No text is in the table twice. -/
def Distinct (names : Interner) : Prop := names.texts.Nodup

/-- A name that the table resolves. -/
def Known (names : Interner) (name : Name) : Prop := name.index < names.size

/-- **The text of a name leads back to the name.** -/
theorem get?_lookup (hdistinct : names.Distinct) (hknown : names.Known name) :
    names.get? (names.lookup name) = some name := by
  have hlt : name.index < names.texts.length := hknown
  have htext : names.lookup name = names.texts[name.index] := by
    simp only [lookup, List.getElem?_eq_getElem hlt, Option.getD_some]
  -- no text that stands earlier in the table is the same
  have hfirst : names.texts.idxOf? (names.lookup name) = some name.index := by
    refine List.idxOf?_eq_some_iff.mpr ⟨hlt, htext.symm, ?_⟩
    intro earlier hearlier
    rw [htext, List.Nodup.getElem_inj_iff hdistinct]
    exact Nat.ne_of_lt hearlier
  rw [get?, hfirst]
  rfl

/-- The text of a name stays when the table grows. -/
theorem lookup_of_prefix (hlater : names.texts <+: later.texts) (hknown : names.Known name) :
    later.lookup name = names.lookup name := by
  obtain ⟨new, hnew⟩ := hlater
  simp only [lookup, ← hnew, List.getElem?_append_left hknown]

theorem Known.of_prefix (hknown : names.Known name) (hlater : names.texts <+: later.texts) :
    later.Known name :=
  Nat.lt_of_lt_of_le hknown hlater.length_le

/-! ## Tables without repetition -/

theorem distinct_initial : initial.Distinct := List.nodup_singleton _

/-- **Interning a text repeats none.** -/
theorem Distinct.intern (h : names.Distinct) (text : String) : (names.intern text).2.Distinct := by
  cases hknown : names.get? text with
  | some name =>
    rw [intern_of_get? hknown]
    exact h
  | none =>
    rw [intern_of_get?_none hknown]
    have hnew : text ∉ names.texts := by
      simpa only [get?, Option.map_eq_none_iff, List.idxOf?_eq_none_iff] using hknown
    show (names.texts ++ [text]).Nodup
    rw [← List.concat_eq_append]
    exact List.Nodup.concat hnew h

/-- **Neither does interning several.** -/
theorem Distinct.internAll (h : names.Distinct) (texts : List String) :
    (names.internAll texts).2.Distinct := by
  induction texts generalizing names with
  | nil => exact h
  | cons text rest ih => exact ih (h.intern text)

end StructuralMatch.Interner

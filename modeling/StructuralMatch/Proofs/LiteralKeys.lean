import StructuralMatch.Proofs.History
import StructuralMatch.Proofs.InternedNames
import StructuralMatch.Proofs.View

/-!
# `Proofs.LiteralKeys` — a constant finds the entry whose key it is

A mapping pattern looks a constant up by the identity that the constant itself gives, and the entries of a
dict stand under the identities that the host gives their keys. The two are worked out apart. For a string
they meet in the table of names: the constant holds a name, the key of the entry holds a text, and the name
of that text must be the one that the constant holds.

* `Host.Reached`: a host that changes lead to from a new one. Its table of names repeats no text
  (`Reached.distinct`).
* `Host.texts_updatedBy`: changes only add to the table of names.
* `Host.mapKey_literalAs`: the host gives the value of a constant the identity of the constant, also after
  further changes.
* `Host.literal_keys_meet` is the main result.
-/

namespace StructuralMatch

/-- A constant that is no string, or whose name the table resolves. -/
def Literal.KnownTo (names : Interner) : Literal → Prop
  | .str name => names.Known name
  | _ => True

namespace Host

/-! ## Reached hosts -/

/-- A new host, which knows the built-in classes only, on a table of names. -/
def onNames (names : Interner) : Host :=
  let (types, names) := Registry.initial names
  { names, types, values := [], guards := [], log := #[], nextIdentity := 0 }

theorem names_onNames (names : Interner) :
    (onNames names).names = (names.internAll (builtinClasses.map (·.1))).2 := by
  simp only [onNames, Registry.initial]

/-- **A host that is reached** from a new one by changes. Some texts may be interned before the new host
    is set up. -/
inductive Reached : Host → Prop
  | new (texts : List String) : Reached (onNames (Interner.initial.internAll texts).2)
  | updated {host} (change : HostUpdate) : Reached host → Reached (host.updated change)

/-- The host after some changes. -/
def updatedBy (host : Host) (changes : List HostUpdate) : Host := changes.foldl Host.updated host

variable {host : Host}

theorem names_afterRegistration (result : Except RegistryError (TypeId × Registry)) :
    (host.afterRegistration (host.withTypes result)).names = host.names := by
  cases result <;> rfl

/-- A change interns a text or leaves the names as they are. -/
theorem names_updated_cases (host : Host) (change : HostUpdate) :
    (host.updated change).names = host.names ∨
      ∃ text, (host.updated change).names = (host.names.intern text).2 := by
  cases change with
  | intern text => exact .inr ⟨text, rfl⟩
  | defineClass | defineClassUnchecked => exact .inl (names_afterRegistration _)
  | addValue | setValue | addGuard => exact .inl rfl

/-- **No text is twice in the table of a host that is reached.** -/
theorem Reached.distinct (h : host.Reached) : host.names.Distinct := by
  induction h with
  | new texts =>
    rw [names_onNames]
    exact (Interner.distinct_initial.internAll texts).internAll _
  | @updated host change _ ih =>
    rcases host.names_updated_cases change with heq | ⟨text, heq⟩
    · rwa [heq]
    · rw [heq]
      exact ih.intern text

theorem Reached.updatedBy (h : host.Reached) (changes : List HostUpdate) :
    (host.updatedBy changes).Reached := by
  induction changes generalizing host with
  | nil => exact h
  | cons change rest ih => exact ih (h.updated change)

/-- **Changes only add to the table of names.** -/
theorem texts_updatedBy (host : Host) (changes : List HostUpdate) :
    host.names.texts <+: (host.updatedBy changes).names.texts := by
  induction changes generalizing host with
  | nil => exact List.prefix_rfl
  | cons change rest ih =>
    refine List.IsPrefix.trans ?_ (ih (host.updated change))
    rcases host.names_updated_cases change with heq | ⟨text, heq⟩
    · simp only [heq, List.prefix_rfl]
    · rw [heq]
      exact host.names.texts_isPrefix_intern text

/-! ## The values of constants -/

/-- The value of a constant, allocated under some identity. -/
def literalAs (host : Host) (identity : Identity) (constant : Literal) : Value :=
  { host with nextIdentity := identity }.literal constant

/-- **The value of a constant has the identity of the constant** in every later host, however many texts
    are interned by then. -/
theorem mapKey_literalAs {later : Host} (hlater : host.names.texts <+: later.names.texts)
    (hdistinct : later.names.Distinct) (identity : Identity) {constant : Literal}
    (hknown : constant.KnownTo host.names) :
    later.mapKey (host.literalAs identity constant) = some constant.mapKey := by
  cases constant with
  | none | bool | int | float => rfl
  | str name =>
    have htext : later.names.lookup name = host.names.lookup name :=
      Interner.lookup_of_prefix hlater hknown
    have hname : later.names.get? (host.names.lookup name) = some name := by
      rw [← htext]
      exact Interner.get?_lookup hdistinct (Interner.Known.of_prefix hknown hlater)
    simp only [mapKey, literalAs, literal, Value.mapKey, hname, Literal.mapKey]

/-- **A constant finds the entry whose key it is.** In every host that is reached, the value of a constant
    that the host knows has the identity of the constant. So the view of a dict contains that identity if
    the key of some entry is the value of the constant, whatever was interned, registered or set between
    the making of the value and the making of the view. -/
theorem literal_keys_meet (hreached : host.Reached) (constant : Literal)
    (hknown : constant.KnownTo host.names) :
    host.mapKey (host.literal constant) = some constant.mapKey ∧
      ∀ (changes : List HostUpdate) (identity : Identity) (entries : List (Value × Value)),
        host.literalAs identity constant ∈ entries.map (·.1) →
        (MappingView.ofEntries (host.updatedBy changes).mapKey entries).containsKey constant.mapKey =
          true := by
  constructor
  · exact mapKey_literalAs List.prefix_rfl hreached.distinct host.nextIdentity hknown
  · intro changes identity entries hmem
    obtain ⟨entry, hentry, hkey⟩ := List.mem_map.mp hmem
    have hidentity : (host.updatedBy changes).mapKey entry.1 = some constant.mapKey := by
      rw [hkey]
      exact mapKey_literalAs (host.texts_updatedBy changes) (hreached.updatedBy changes).distinct
        identity hknown
    rw [MappingView.containsKey_ofEntries, List.any_eq_true]
    exact ⟨entry, hentry, decide_eq_true hidentity⟩

/-- The text `k` is interned, and then `z` is: a view that is made afterwards contains `k`. -/
theorem literal_keys_meet_interned :
    let host := initial.updated (.intern "k")
    let entries : List (Value × Value) := [(.int 1, .none), (.str 7 "k", .int 2)]
    host.mapKey (host.literal (.str ⟨10⟩)) = some (.str ⟨10⟩) ∧
      (MappingView.ofEntries (host.updatedBy [.intern "z"]).mapKey entries).containsKey (.str ⟨10⟩) =
        true := by
  intro host entries
  have hreached : host.Reached := .updated _ (.new [])
  have hknown : Literal.KnownTo host.names (.str ⟨10⟩) := by
    show 10 < host.names.size
    decide +kernel
  have hkey : host.literalAs 7 (.str ⟨10⟩) ∈ entries.map (·.1) := by
    have hvalue : host.literalAs 7 (.str ⟨10⟩) = .str 7 "k" := by
      show Value.str 7 (host.names.lookup ⟨10⟩) = .str 7 "k"
      congr 1
    simp [entries, hvalue]
  obtain ⟨hmeet, hcontains⟩ := literal_keys_meet hreached (.str ⟨10⟩) hknown
  exact ⟨hmeet, hcontains [.intern "z"] 7 entries hkey⟩

end Host

end StructuralMatch

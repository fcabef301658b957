import Xtemplate.Go.Strings

/-!
The functions of `path` and `path/filepath` (on `/`-separated paths) that
the build calls.

`path.Clean` is stated element by element: the elements between slashes,
with empty and `.` elements dropped, each `..` removing the element before it
(or kept at the front of a relative path, or dropped at the root), joined by
single slashes. This is the result Go's byte loop computes. Cleaning a
cleaned path gives it back (`clean_idem`).
-/

namespace Go

/-- The elements `path.Clean` keeps, in reverse order, after one more
element. -/
def cleanStep (rooted : Bool) (acc : List (List Char)) (elem : List Char) : List (List Char) :=
  if elem = [] ∨ elem = ['.'] then acc
  else if elem = ['.', '.'] then
    match acc with
    | top :: rest => if top = ['.', '.'] then ['.', '.'] :: acc else rest
    | [] => if rooted then [] else [['.', '.']]
  else elem :: acc

/-- `path.Clean`. -/
def clean (p : List Char) : List Char :=
  if p = [] then ['.'] else
  let rooted := p.head? = some '/'
  let elems := ((split p '/').foldl (cleanStep rooted) []).reverse
  let joined := "/".toList.intercalate elems
  if rooted then '/' :: joined
  else if joined = [] then ['.'] else joined

/-- `path.Ext`: the suffix from the last dot of the last element, or empty. -/
def ext (p : List Char) : List Char :=
  let lastRev := p.reverse.takeWhile (· != '/')
  match lastRev.findIdx? (· == '.') with
  | some i => (lastRev.take (i + 1)).reverse
  | none => []

/-- `filepath.Split`: the path up to and including its last slash, and the
rest. -/
def splitPath (p : List Char) : List Char × List Char :=
  let file := (p.reverse.takeWhile (· != '/')).reverse
  (p.take (p.length - file.length), file)

/-- `path.Base`: the last element, with trailing slashes removed; `.` for the
empty path and `/` for a path of slashes. -/
def base (p : List Char) : List Char :=
  if p = [] then ['.'] else
  let trimmed := (p.reverse.dropWhile (· == '/')).reverse
  if trimmed = [] then ['/'] else (splitPath trimmed).2

/-- `path.Dir`: everything before the last element, cleaned. -/
def dir (p : List Char) : List Char := clean (splitPath p).1

/-- `path.Join(a, b)`: the non-empty elements joined by a slash, then cleaned;
empty when both are. -/
def join (a b : List Char) : List Char :=
  if a = [] ∧ b = [] then []
  else if a = [] then clean b
  else clean (a ++ '/' :: b)

example : clean "/a//b/./../c/".toList = "/a/c".toList := by decide
example : clean "../x/..".toList = "..".toList := by decide
example : ext "/css/reset.css.gz".toList = ".gz".toList := by decide
example : ext "/a.b/c".toList = [] := by decide
example : base "/a/index".toList = "index".toList := by decide
example : dir "/a/index".toList = "/a".toList := by decide
example : join "a".toList "../b".toList = "b".toList := by decide
example : join ".".toList "/etc".toList = "etc".toList := by decide

/-! ### `path.Clean` is idempotent

The elements `path.Clean` keeps, most recent first, are clean: normal
elements after the leading `..`s of a relative path (`CleanAcc`). Splitting
their join gives them back, and cleaning them again keeps them as they are.
-/

/-- An element `path.Clean` keeps as it is. -/
def NormalElem (e : List Char) : Prop := e ≠ [] ∧ e ≠ ['.'] ∧ e ≠ ['.', '.'] ∧ '/' ∉ e

/-- The kept elements, most recent first: normal elements after the leading
`..`s of a relative path, and no `..` at all in a rooted one. -/
def CleanAcc (rooted : Bool) (acc : List (List Char)) : Prop :=
  ∃ ns ds, acc = ns ++ ds ∧ (∀ e ∈ ns, NormalElem e) ∧ (∀ e ∈ ds, e = ['.', '.']) ∧
    (rooted = true → ds = [])

theorem cleanAcc_nil (rooted : Bool) : CleanAcc rooted [] :=
  ⟨[], [], rfl, by simp, by simp, fun _ => rfl⟩

/-- A `..` on a clean accumulator: it removes the last normal element, or
joins the leading `..`s of a relative path. -/
theorem CleanAcc.dots {rooted : Bool} {top : List Char} {rest : List (List Char)}
    (h : CleanAcc rooted (top :: rest)) :
    CleanAcc rooted (if top = ['.', '.'] then ['.', '.'] :: top :: rest else rest) := by
  obtain ⟨ns, ds, hacc, hns, hds, hr⟩ := h
  cases ns with
  | nil =>
    -- every kept element is a `..`, so the path is relative
    rw [List.nil_append] at hacc
    subst hacc
    have htop : top = ['.', '.'] := hds top List.mem_cons_self
    have hrel : rooted = false := by
      cases rooted with
      | false => rfl
      | true => cases hr rfl
    rw [if_pos htop]
    refine ⟨[], ['.', '.'] :: top :: rest, rfl, by simp, fun e he => ?_, by simp [hrel]⟩
    rcases List.mem_cons.mp he with rfl | he
    · rfl
    · exact hds e he
  | cons n ns =>
    simp only [List.cons_append, List.cons.injEq] at hacc
    obtain ⟨rfl, rfl⟩ := hacc
    rw [if_neg (hns top List.mem_cons_self).2.2.1]
    exact ⟨ns, ds, rfl, fun e he => hns e (List.mem_cons_of_mem _ he), hds, hr⟩

/-- One more element keeps the kept elements clean. -/
theorem CleanAcc.step {rooted : Bool} {acc : List (List Char)} (h : CleanAcc rooted acc)
    {elem : List Char} (he : '/' ∉ elem) : CleanAcc rooted (cleanStep rooted acc elem) := by
  unfold cleanStep
  by_cases h0 : elem = [] ∨ elem = ['.']
  · rw [if_pos h0]
    exact h
  rw [if_neg h0]
  by_cases h1 : elem = ['.', '.']
  · rw [if_pos h1]
    cases acc with
    | nil =>
      cases rooted with
      | false => exact ⟨[], [['.', '.']], rfl, by simp, by simp, by simp⟩
      | true => exact cleanAcc_nil true
    | cons top rest => exact h.dots
  · rw [if_neg h1]
    obtain ⟨ns, ds, rfl, hns, hds, hr⟩ := h
    refine ⟨elem :: ns, ds, rfl, fun e he' => ?_, hds, hr⟩
    rcases List.mem_cons.mp he' with rfl | he'
    · exact ⟨fun h => h0 (Or.inl h), fun h => h0 (Or.inr h), h1, he⟩
    · exact hns e he'

theorem CleanAcc.foldl {rooted : Bool} {acc : List (List Char)} (h : CleanAcc rooted acc)
    {elems : List (List Char)} (he : ∀ e ∈ elems, '/' ∉ e) :
    CleanAcc rooted (elems.foldl (cleanStep rooted) acc) := by
  induction elems generalizing acc with
  | nil => exact h
  | cons e elems ih =>
    rw [List.foldl_cons]
    exact ih (h.step (he e List.mem_cons_self)) fun e' he' => he e' (List.mem_cons_of_mem _ he')

/-- The elements `path.Clean` keeps of a path. -/
theorem cleanAcc_split (rooted : Bool) (p : List Char) :
    CleanAcc rooted ((split p '/').foldl (cleanStep rooted) []) :=
  (cleanAcc_nil rooted).foldl fun _ he => not_mem_of_mem_split he

/-- Normal elements are kept as they come. -/
theorem foldl_cleanStep_normal (rooted : Bool) {elems : List (List Char)}
    (h : ∀ e ∈ elems, NormalElem e) (acc : List (List Char)) :
    elems.foldl (cleanStep rooted) acc = elems.reverse ++ acc := by
  induction elems generalizing acc with
  | nil => rfl
  | cons e elems ih =>
    obtain ⟨h0, h1, h2, -⟩ := h e List.mem_cons_self
    have hstep : cleanStep rooted acc e = e :: acc := by
      simp [cleanStep, h0, h1, h2]
    rw [List.foldl_cons, hstep, ih fun e' he' => h e' (List.mem_cons_of_mem _ he')]
    simp

/-- The `..`s of a relative path pile up. -/
theorem foldl_cleanStep_dots {elems acc : List (List Char)} (h : ∀ e ∈ elems, e = ['.', '.'])
    (hacc : ∀ e ∈ acc, e = ['.', '.']) :
    elems.foldl (cleanStep false) acc = elems.reverse ++ acc := by
  induction elems generalizing acc with
  | nil => rfl
  | cons e elems ih =>
    have he : e = ['.', '.'] := h e List.mem_cons_self
    subst he
    have hstep : cleanStep false acc ['.', '.'] = ['.', '.'] :: acc := by
      cases acc with
      | nil => rfl
      | cons top rest => simp [cleanStep, hacc top List.mem_cons_self]
    have hacc' : ∀ e ∈ ['.', '.'] :: acc, e = ['.', '.'] := by
      intro e he
      rcases List.mem_cons.mp he with rfl | he
      · rfl
      · exact hacc e he
    rw [List.foldl_cons, hstep, ih (fun e' he' => h e' (List.mem_cons_of_mem _ he')) hacc']
    simp

/-- Kept elements, cleaned again, are kept as they are. -/
theorem CleanAcc.foldl_reverse {rooted : Bool} {acc : List (List Char)} (h : CleanAcc rooted acc) :
    acc.reverse.foldl (cleanStep rooted) [] = acc := by
  obtain ⟨ns, ds, rfl, hns, hds, hr⟩ := h
  have hdots : ds.reverse.foldl (cleanStep rooted) [] = ds := by
    cases rooted with
    | true => simp [hr rfl]
    | false =>
      rw [foldl_cleanStep_dots (fun e he => hds e (List.mem_reverse.mp he)) (by simp)]
      simp
  rw [List.reverse_append, List.foldl_append, hdots,
    foldl_cleanStep_normal rooted (fun e he => hns e (List.mem_reverse.mp he)), List.reverse_reverse]

/-- Kept elements are not empty and hold no slash. -/
theorem CleanAcc.elem {rooted : Bool} {acc : List (List Char)} (h : CleanAcc rooted acc)
    {e : List Char} (he : e ∈ acc) : e ≠ [] ∧ '/' ∉ e := by
  obtain ⟨ns, ds, rfl, hns, hds, -⟩ := h
  rcases List.mem_append.mp he with he | he
  · exact ⟨(hns e he).1, (hns e he).2.2.2⟩
  · rw [hds e he]
    simp

/-- Splitting the join of kept elements gives them back. -/
theorem CleanAcc.split_join {rooted : Bool} {acc : List (List Char)} (h : CleanAcc rooted acc)
    (hne : acc ≠ []) : split (['/'].intercalate acc.reverse) '/' = acc.reverse :=
  List.splitOn_intercalate '/' (fun l hl => (h.elem (List.mem_reverse.mp hl)).2)
    (by simpa using hne)

/-- The join of kept elements starts with the first one. -/
theorem CleanAcc.head_join {rooted : Bool} {acc : List (List Char)} (h : CleanAcc rooted acc)
    (hne : acc ≠ []) :
    ∃ c, (['/'].intercalate acc.reverse).head? = some c ∧ c ≠ '/' := by
  obtain ⟨e, es, hes⟩ := List.exists_cons_of_ne_nil (List.reverse_ne_nil_iff.mpr hne)
  obtain ⟨hne', hslash⟩ := h.elem (List.mem_reverse.mp (hes ▸ List.mem_cons_self))
  obtain ⟨c, cs, rfl⟩ := List.exists_cons_of_ne_nil hne'
  refine ⟨c, ?_, fun hc => hslash (hc ▸ List.mem_cons_self)⟩
  rw [hes]
  cases es with
  | nil => rfl
  | cons e' es => rw [List.intercalate_cons_cons]; rfl

theorem clean_of_ne_nil {p : List Char} (hp : p ≠ []) :
    clean p =
      let rooted := p.head? = some '/'
      let joined := ['/'].intercalate ((split p '/').foldl (cleanStep rooted) []).reverse
      if rooted then '/' :: joined else if joined = [] then ['.'] else joined := by
  rw [clean, if_neg hp]
  rfl

/-- A rooted join of kept elements is clean. -/
theorem clean_rooted_join {acc : List (List Char)} (h : CleanAcc true acc) :
    clean ('/' :: ['/'].intercalate acc.reverse) = '/' :: ['/'].intercalate acc.reverse := by
  rw [clean_of_ne_nil (List.cons_ne_nil _ _)]
  simp only [List.head?_cons, decide_true, if_true]
  -- the leading slash splits off an empty element, which is dropped
  rw [split_cons, if_pos rfl, List.foldl_cons, show cleanStep true [] [] = [] from rfl]
  by_cases hacc : acc = []
  · subst hacc
    rfl
  · rw [h.split_join hacc, h.foldl_reverse]

/-- A relative join of kept elements is clean. -/
theorem clean_relative_join {acc : List (List Char)} (h : CleanAcc false acc) (hne : acc ≠ []) :
    clean (['/'].intercalate acc.reverse) = ['/'].intercalate acc.reverse := by
  obtain ⟨c, hc, hslash⟩ := h.head_join hne
  have hjoin : ['/'].intercalate acc.reverse ≠ [] := fun h => by simp [h] at hc
  rw [clean_of_ne_nil hjoin]
  simp only [hc, Option.some.injEq, hslash, if_false, decide_false]
  rw [h.split_join hne, h.foldl_reverse, if_neg hjoin]

/-- **`path.Clean` is idempotent.** -/
theorem clean_idem (p : List Char) : clean (clean p) = clean p := by
  by_cases hp : p = []
  · subst hp
    rfl
  rw [clean_of_ne_nil hp]
  by_cases hr : p.head? = some '/'
  · have hacc := cleanAcc_split (decide (p.head? = some '/')) p
    simp only [hr, decide_true, if_true] at hacc ⊢
    exact clean_rooted_join hacc
  · have hacc := cleanAcc_split (decide (p.head? = some '/')) p
    simp only [hr, decide_false, if_false] at hacc ⊢
    split
    · rfl
    · rename_i hjoin
      exact clean_relative_join hacc fun h => hjoin (by simp [h])

theorem clean_ne_nil (p : List Char) : clean p ≠ [] := by
  by_cases hp : p = []
  · subst hp
    simp [clean]
  rw [clean_of_ne_nil hp]
  dsimp only
  split
  · simp
  · split
    · simp
    · assumption

/-- A relative path cleans to a relative path. -/
theorem head_clean_ne_slash {p : List Char} (hp : p.head? ≠ some '/') :
    (clean p).head? ≠ some '/' := by
  by_cases hnil : p = []
  · subst hnil
    simp [clean]
  have hacc := cleanAcc_split false p
  rw [clean_of_ne_nil hnil]
  simp only [hp, decide_false, if_false]
  split
  · simp
  · rename_i hjoin
    obtain ⟨c, hc, hslash⟩ := hacc.head_join fun h => hjoin (by simp [h])
    rw [hc]
    simpa using hslash

/-- A leading `./` on a relative path changes nothing. -/
theorem clean_dot_slash {w : List Char} (hw : w.head? ≠ some '/') :
    clean ('.' :: '/' :: w) = clean w := by
  by_cases hnil : w = []
  · subst hnil
    rfl
  -- the `.` splits off first, and is dropped
  have hsplit : split ('.' :: '/' :: w) '/' = ['.'] :: split w '/' := by
    rw [split_cons, if_neg (by decide), split_cons, if_pos rfl]
    rfl
  rw [clean_of_ne_nil (List.cons_ne_nil _ _), clean_of_ne_nil hnil, hsplit]
  simp only [List.head?_cons, Option.some.injEq, show ('.' = '/') = False from by decide, hw,
    decide_false, if_false]
  rfl

/-- `path.Join(".", x)` for a non-empty `x`. -/
theorem join_dot {x : List Char} (hx : x ≠ []) : join ['.'] x = clean ('.' :: '/' :: x) := by
  simp [join, hx]

/-- Joining onto `.` what was already joined onto `.` gives the same path. -/
theorem join_dot_clean_join_dot (name : List Char) :
    join ['.'] (clean (join ['.'] (clean name))) = join ['.'] (clean name) := by
  have hj : join ['.'] (clean name) = clean ('.' :: '/' :: clean name) :=
    join_dot (clean_ne_nil name)
  have hrel : (clean ('.' :: '/' :: clean name)).head? ≠ some '/' := head_clean_ne_slash (by simp)
  rw [hj, clean_idem, join_dot (clean_ne_nil _), clean_dot_slash hrel, clean_idem]

/-! ### `path.Join` on joined paths

`path.Clean` reads a path element by element, so what a path contributes to
a join is what its elements do to the elements kept before them. A relative
path's cleaned form does the same (`foldl_split_clean`), and so does a
cleaned path at the front (`foldl_split_clean_front`). So cleaning either
part of a join first changes nothing, and `path.Join` is associative on a
relative middle path (`join_assoc`).
-/

theorem split_append_slash (x y : List Char) : split (x ++ '/' :: y) '/' = split x '/' ++ split y '/' :=
  List.splitOn_append_cons_self x y

theorem cleanStep_skip {rooted : Bool} {acc : List (List Char)} {e : List Char}
    (h : e = [] ∨ e = ['.']) : cleanStep rooted acc e = acc := by
  simp only [cleanStep, if_pos h]

theorem cleanStep_push {rooted : Bool} {acc : List (List Char)} {e : List Char}
    (h0 : e ≠ []) (h1 : e ≠ ['.']) (h2 : e ≠ ['.', '.']) : cleanStep rooted acc e = e :: acc := by
  simp [cleanStep, h0, h1, h2]

theorem cleanStep_dots_pop {rooted : Bool} {top : List Char} {rest : List (List Char)}
    (htop : top ≠ ['.', '.']) : cleanStep rooted (top :: rest) ['.', '.'] = rest := by
  simp [cleanStep, htop]

theorem cleanStep_dots_dots (rooted : Bool) (rest : List (List Char)) :
    cleanStep rooted (['.', '.'] :: rest) ['.', '.'] = ['.', '.'] :: ['.', '.'] :: rest := by
  simp [cleanStep]

/-- Kept elements are neither empty nor `.`. -/
theorem CleanAcc.ne_dot {rooted : Bool} {acc : List (List Char)} (h : CleanAcc rooted acc)
    {e : List Char} (he : e ∈ acc) : e ≠ [] ∧ e ≠ ['.'] := by
  obtain ⟨ns, ds, rfl, hns, hds, -⟩ := h
  rcases List.mem_append.mp he with he | he
  · exact ⟨(hns e he).1, (hns e he).2.1⟩
  · rw [hds e he]
    simp

/-- One element's step on relative kept elements, replayed on any kept
elements, is that element's step there. -/
theorem foldl_cleanStep_relative_step (rooted : Bool) (S : List (List Char))
    {acc : List (List Char)} (hacc : CleanAcc false acc) (e : List Char) :
    (cleanStep false acc e).reverse.foldl (cleanStep rooted) S =
      cleanStep rooted (acc.reverse.foldl (cleanStep rooted) S) e := by
  by_cases h0 : e = [] ∨ e = ['.']
  · rw [cleanStep_skip h0, cleanStep_skip h0]
  by_cases h1 : e = ['.', '.']
  · subst h1
    cases acc with
    | nil => rfl
    | cons top rest =>
      by_cases htop : top = ['.', '.']
      · -- the `..` piles up on the relative side, and is replayed last
        subst htop
        rw [cleanStep_dots_dots, List.reverse_cons, List.foldl_append, List.foldl_cons,
          List.foldl_nil]
      · -- it takes back the element before it on both sides
        obtain ⟨hne, hdot⟩ := hacc.ne_dot List.mem_cons_self
        rw [cleanStep_dots_pop htop, List.reverse_cons, List.foldl_append, List.foldl_cons,
          List.foldl_nil, cleanStep_push hne hdot htop, cleanStep_dots_pop htop]
  · have hne : e ≠ [] := fun h => h0 (.inl h)
    have hdot : e ≠ ['.'] := fun h => h0 (.inr h)
    rw [cleanStep_push hne hdot h1, List.reverse_cons, List.foldl_append, List.foldl_cons,
      List.foldl_nil]

/-- Cleaning elements relative to nothing, then replaying what is kept on
any kept elements, is replaying the elements themselves. -/
theorem foldl_cleanStep_relative (rooted : Bool) (S : List (List Char)) :
    ∀ (elems acc : List (List Char)), CleanAcc false acc → (∀ e ∈ elems, '/' ∉ e) →
      (elems.foldl (cleanStep false) acc).reverse.foldl (cleanStep rooted) S =
        elems.foldl (cleanStep rooted) (acc.reverse.foldl (cleanStep rooted) S)
  | [], _, _, _ => rfl
  | e :: elems, acc, hacc, he => by
    rw [List.foldl_cons, List.foldl_cons,
      foldl_cleanStep_relative rooted S elems _ (hacc.step (he e List.mem_cons_self))
        (fun e' he' => he e' (List.mem_cons_of_mem _ he')),
      foldl_cleanStep_relative_step rooted S hacc e]

/-- What a relative path does to any kept elements, its cleaned form does. -/
theorem foldl_split_clean (rooted : Bool) (S : List (List Char)) {y : List Char}
    (hy : y.head? ≠ some '/') :
    (split (clean y) '/').foldl (cleanStep rooted) S = (split y '/').foldl (cleanStep rooted) S := by
  by_cases hnil : y = []
  · subst hnil
    rfl
  have hacc := cleanAcc_split false y
  -- `y`'s elements act as the elements `path.Clean` keeps of them
  have hy' : (split y '/').foldl (cleanStep rooted) S =
      ((split y '/').foldl (cleanStep false) []).reverse.foldl (cleanStep rooted) S :=
    (foldl_cleanStep_relative rooted S (split y '/') [] (cleanAcc_nil false)
      (fun e he => not_mem_of_mem_split he)).symm
  rw [hy', clean_of_ne_nil hnil]
  simp only [hy, decide_false, if_false]
  by_cases hkept : (split y '/').foldl (cleanStep false) [] = []
  · rw [hkept]
    rfl
  · obtain ⟨c, hc, -⟩ := hacc.head_join hkept
    have hjoin : ['/'].intercalate ((split y '/').foldl (cleanStep false) []).reverse ≠ [] :=
      fun h => by simp [h] at hc
    rw [if_neg hjoin, hacc.split_join hkept]

/-- `path.Clean` keeps a path rooted or relative. -/
theorem head_clean_eq_slash {p : List Char} : (clean p).head? = some '/' ↔ p.head? = some '/' := by
  constructor
  · intro h
    by_contra hp
    exact head_clean_ne_slash hp h
  · intro h
    have hp : p ≠ [] := fun hp => by simp [hp] at h
    rw [clean_of_ne_nil hp]
    simp [h]

/-- A path at the front of a join acts from no kept elements as its cleaned
form does. -/
theorem foldl_split_clean_front {x : List Char} (hx : x ≠ []) :
    (split (clean x) '/').foldl (cleanStep (decide (x.head? = some '/'))) [] =
      (split x '/').foldl (cleanStep (decide (x.head? = some '/'))) [] := by
  by_cases hr : x.head? = some '/'
  · have hacc := cleanAcc_split true x
    rw [clean_of_ne_nil hx]
    simp only [hr, decide_true, if_true] at hacc ⊢
    -- the leading slash splits off an empty element, which is dropped
    rw [split_cons, if_pos rfl, List.foldl_cons, show cleanStep true [] [] = [] from rfl]
    by_cases hkept : (split x '/').foldl (cleanStep true) [] = []
    · rw [hkept]
      rfl
    · rw [hacc.split_join hkept, hacc.foldl_reverse]
  · exact foldl_split_clean _ [] hr

/-- Cleaning the front of a join first changes nothing. -/
theorem clean_clean_append {x : List Char} (hx : x ≠ []) (y : List Char) :
    clean (clean x ++ '/' :: y) = clean (x ++ '/' :: y) := by
  have hl := @clean_of_ne_nil (clean x ++ '/' :: y) (by simp)
  have hr := @clean_of_ne_nil (x ++ '/' :: y) (by simp)
  rw [hl, hr, List.head?_append_of_ne_nil _ (clean_ne_nil x), List.head?_append_of_ne_nil _ hx]
  simp only [head_clean_eq_slash]
  rw [split_append_slash, split_append_slash, List.foldl_append, List.foldl_append,
    foldl_split_clean_front hx]

/-- Cleaning a relative back of a join first changes nothing. -/
theorem clean_append_clean {x y : List Char} (hx : x ≠ []) (hy : y.head? ≠ some '/') :
    clean (x ++ '/' :: clean y) = clean (x ++ '/' :: y) := by
  have hl := @clean_of_ne_nil (x ++ '/' :: clean y) (by simp)
  have hr := @clean_of_ne_nil (x ++ '/' :: y) (by simp)
  rw [hl, hr, List.head?_append_of_ne_nil _ hx, List.head?_append_of_ne_nil _ hx]
  simp only [split_append_slash, List.foldl_append, foldl_split_clean _ _ hy]

/-- **`path.Join` is associative** on a relative middle path. -/
theorem join_assoc {p a : List Char} (hp : p ≠ []) (ha : a ≠ []) (hra : a.head? ≠ some '/')
    (b : List Char) : join (join p a) b = join p (join a b) := by
  have hpa : join p a = clean (p ++ '/' :: a) := by simp [join, hp]
  have hab : join a b = clean (a ++ '/' :: b) := by simp [join, ha]
  have hrel : (a ++ '/' :: b).head? ≠ some '/' := by
    rw [List.head?_append_of_ne_nil _ ha]
    exact hra
  calc join (join p a) b
      = clean (clean (p ++ '/' :: a) ++ '/' :: b) := by
        rw [hpa]
        simp [join, clean_ne_nil]
    _ = clean (p ++ '/' :: (a ++ '/' :: b)) := by
      rw [clean_clean_append (by simp), List.append_assoc, List.cons_append]
    _ = clean (p ++ '/' :: clean (a ++ '/' :: b)) := (clean_append_clean hp hrel).symm
    _ = join p (join a b) := by
        rw [hab]
        simp [join, hp]

/-- Joining two cleaned paths, the second relative, is cleaning their join. -/
theorem join_clean_clean {a b : List Char} (ha : a ≠ []) (hrb : b.head? ≠ some '/') :
    join (clean a) (clean b) = clean (join a b) := by
  have hab : join a b = clean (a ++ '/' :: b) := by simp [join, ha]
  rw [hab, clean_idem, ← clean_append_clean ha hrb, ← clean_clean_append ha]
  simp [join, clean_ne_nil]

/-- A join onto a non-empty path is not empty. -/
theorem join_ne_nil {x y : List Char} (hy : y ≠ []) : join x y ≠ [] := by
  unfold join
  rw [if_neg (fun h => hy h.2)]
  split
  · exact clean_ne_nil y
  · exact clean_ne_nil _

end Go

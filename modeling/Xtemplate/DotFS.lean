import Xtemplate.Build

/-!
The directory provider's dot value (`dot_fs.go`, and `Value` and `Cleanup`
of `dot_fs_config.go`).

A `Dir` is a path into the provider's FS; every `Dir` derived from the
request's root with `Dir(name)` shares the root's `dotFS`, and with it one
opened set. The FS is a tree of files (`FS`), its directories the paths the
files lie under, and `fsys.Open` on it follows `fs.FS`: a path that is not
`fs.ValidPath` is invalid, a file opens as itself and a directory as a
directory.

`Stat`, `Read`, `List` and `Dir` open and close what they read within the
call, so they are functions of the FS. `Open` and `Exists` change the
request's state, `DirState`: the handles open on the FS and the opened set.

* `dir_exists_joins_twice`: `Exists` joins the Dir's path onto the name
  twice, once itself and once in the `Open` it calls, so on a nested Dir it
  looks for a file where `Stat` finds none.
* `dir_methods_join`: the other methods compose. The `Dir` of a relative
  name `a` answers `Stat`, `Read`, `List`, `Open` and `Dir` at `b` as its
  parent does at `path.Join(a, b)`, since `path.Join` is associative there.
* `dir_open_returns_untracked`: `Open` records the file it opened in the
  opened set and returns a second file, which `Cleanup` never closes.
* `cleanup_closes_untracked`: over every sequence of `Open`, `Exists` and
  `Close` calls, `Cleanup` closes exactly the files the template was never
  given; the ones it was given and did not close stay open.
-/

namespace Xtemplate

open Go

/-! ### The provider's FS -/

/-- What `fsys.Open` opens. -/
inductive FSNode where
  | file (f : FSFile)
  | dir

/-- `fs.PathError{Op, Path, Err}`, by its text. -/
def pathError (op path text : List Char) : Err := .leaf (.other (op ++ " ".toList ++ path ++ ": ".toList ++ text))

/-- `fs.ValidPath`: `.`, or slash-separated elements none of which is empty,
`.` or `..`. -/
def validPath (name : List Char) : Bool :=
  name = ['.'] || (split name '/').all fun e => e ≠ [] && e ≠ ['.'] && e ≠ ['.', '.']

/-- Whether a path names a directory of the tree: the root, or a path some
file lies under. -/
def FS.isDir (fs : FS) (name : List Char) : Bool :=
  name = ['.'] || fs.files.any fun f => hasPrefix f.path (name ++ ['/'])

/-- `fsys.Open(name)`. -/
def FS.openNode (fs : FS) (name : List Char) : Except Err FSNode :=
  if !validPath name then .error (pathError "open".toList name "invalid argument".toList)
  else
    match fs.open name with
    | some f => .ok (.file f)
    | none =>
      if fs.isDir name then .ok .dir
      else .error (pathError "open".toList name "file does not exist".toList)

/-- `fs.ReadDir(fsys, name)`: the names of the entries right under a
directory, sorted. -/
def FS.readDir (fs : FS) (name : List Char) : Except Err (List (List Char)) :=
  match fs.openNode name with
  | .error err => .error err
  | .ok (.file _) => .error (pathError "readdir".toList name "not a directory".toList)
  | .ok .dir =>
    let pre := if name = ['.'] then [] else name ++ ['/']
    let entries := fs.files.filterMap fun f =>
      if hasPrefix f.path pre then (split (f.path.drop pre.length) '/').head? else none
    .ok (entries.dedup.insertionSort fun a b => decide (a < b))

/-! ### The request's state -/

/-- What one request's directory dot changes: its `dotFS`, whose opened set
is shared by every `Dir` derived from the root, the files open on the FS,
by handle with the path each was opened at, and the next handle. -/
structure DirState where
  dot : DotFS
  files : List (Nat × List Char)
  next : Nat

/-- `fsys.Open` of a path that opens: a fresh handle. -/
def DirState.openFile (st : DirState) (p : List Char) : Nat × DirState :=
  (st.next, { st with files := st.files ++ [(st.next, p)], next := st.next + 1 })

/-- The text of `fs.ErrClosed`. -/
def fileAlreadyClosed : Err := errorf "file already closed"

/-- `file.Close()`. -/
def DirState.close (st : DirState) (h : Nat) : Option Err × DirState :=
  if h ∈ st.files.map Prod.fst then (none, { st with files := st.files.filter (·.1 ≠ h) })
  else (some fileAlreadyClosed, st)

/-- The value `DotDirConfig.Value` gives a request: the root `Dir`, with a
fresh opened set. -/
def DirState.start (files : List (Nat × List Char)) (next : Nat) : DirState := ⟨⟨[]⟩, files, next⟩

@[simp] theorem DirState.openFile_fst (st : DirState) (p : List Char) :
    (st.openFile p).1 = st.next := rfl

@[simp] theorem DirState.openFile_dot (st : DirState) (p : List Char) :
    (st.openFile p).2.dot = st.dot := rfl

@[simp] theorem DirState.openFile_files (st : DirState) (p : List Char) :
    (st.openFile p).2.files = st.files ++ [(st.next, p)] := rfl

@[simp] theorem DirState.openFile_next (st : DirState) (p : List Char) :
    (st.openFile p).2.next = st.next + 1 := rfl

@[simp] theorem DirState.close_dot (st : DirState) (h : Nat) : (st.close h).2.dot = st.dot := by
  unfold DirState.close
  split <;> rfl

@[simp] theorem DirState.close_next (st : DirState) (h : Nat) : (st.close h).2.next = st.next := by
  unfold DirState.close
  split <;> rfl

/-- A close leaves open exactly the other files that were open. -/
theorem DirState.mem_close_files (st : DirState) (h : Nat) (x : Nat × List Char) :
    x ∈ (st.close h).2.files ↔ x ∈ st.files ∧ x.1 ≠ h := by
  unfold DirState.close
  split
  · simp
  · rename_i hh
    constructor
    · intro hx
      refine ⟨hx, fun hxh => hh ?_⟩
      exact hxh ▸ List.mem_map_of_mem hx
    · exact fun hx => hx.1

/-! ### `Dir` -/

/-- `Dir`: a path of the provider's FS, relative to its root. -/
structure Dir where
  path : List Char

/-- The `Dir` `DotDirConfig.Value` gives: the root. -/
def Dir.root : Dir := ⟨['.']⟩

section Methods

variable (fs : FS)

/-- `Dir.Stat(name)`: the file or directory at the joined path. -/
def Dir.stat (d : Dir) (name : List Char) : Except Err FSNode :=
  fs.openNode (join d.path (clean name))

/-- `Dir.Dir(name)`: the `Dir` of a directory at the joined path. -/
def Dir.dir (d : Dir) (name : List Char) : Except Err Dir :=
  let name := clean name
  match d.stat fs name with
  | .error err => .error err
  | .ok (.file _) => .error (errorf ("not a directory: " ++ String.ofList name))
  | .ok .dir => .ok ⟨join d.path name⟩

/-- `Dir.List(name)`. -/
def Dir.list (d : Dir) (name : List Char) : Except Err (List (List Char)) :=
  fs.readDir (join d.path (clean name))

/-- `Dir.Read(name)`: the content of the file at the joined path; reading a
directory fails. -/
def Dir.read (d : Dir) (name : List Char) : Except Err (List Char) :=
  let name := join d.path (clean name)
  match fs.openNode name with
  | .error err => .error err
  | .ok (.file f) => .ok f.content
  | .ok .dir => .error (pathError "read".toList name "is a directory".toList)

/-- `Dir.Open(name)`: the file at the joined path is opened and recorded in
the opened set, and the file returned is the one a second `fsys.Open` of the
path gives. -/
def Dir.open (d : Dir) (name : List Char) (st : DirState) : Except Err Nat × DirState :=
  let name := join d.path (clean name)
  match fs.openNode name with
  | .error err =>
    (.error (.wrap ("failed to open file at path '".toList ++ name ++ "': ".toList) err), st)
  | .ok _ =>
    let (file, st) := st.openFile name
    let st := { st with dot := ⟨st.dot.opened ++ [file]⟩ }
    match fs.openNode name with
    | .error err => (.error err, st)
    | .ok _ =>
      let (file, st) := st.openFile name
      (.ok file, st)

/-- `Dir.Exists(name)`: whether `Open` succeeds, on the name already joined
to the Dir's path; the file it returns is closed. -/
def Dir.exists (d : Dir) (name : List Char) (st : DirState) : Bool × DirState :=
  let name := join d.path (clean name)
  match d.open fs name st with
  | (.ok file, st) => (true, (st.close file).2)
  | (.error _, st) => (false, st)

end Methods

/-! ### `Exists` on a nested Dir -/

/-- An FS with one file, `a/b`. -/
def abFS : FS := ⟨[⟨"a/b".toList, "b".toList, true⟩], by decide⟩

/-- The `Dir` of `a` is reached from the root, and its `Stat("b")` finds the
file `a/b`; its `Exists("b")` is false, since it opens `a/a/b`. -/
theorem dir_exists_joins_twice (st : DirState) :
    Dir.root.dir abFS "a".toList = .ok ⟨"a".toList⟩ ∧
      (⟨"a".toList⟩ : Dir).stat abFS "b".toList = .ok (.file ⟨"a/b".toList, "b".toList, true⟩) ∧
      join "a".toList (clean "b".toList) = "a/b".toList ∧
      join "a".toList (clean (join "a".toList (clean "b".toList))) = "a/a/b".toList ∧
      ((⟨"a".toList⟩ : Dir).exists abFS "b".toList st).1 = false :=
  ⟨rfl, rfl, by decide, by decide, rfl⟩

/-- At the root the second join is invisible: `Exists(name)` holds exactly
when `Stat(name)` succeeds, for every FS and name. -/
theorem root_exists_iff_stat (fs : FS) (name : List Char) (st : DirState) :
    (Dir.root.exists fs name st).1 = true ↔ ∃ n, Dir.root.stat fs name = .ok n := by
  -- `Open` joins onto `.` the path `Exists` already joined onto `.`
  have hjoin := join_dot_clean_join_dot name
  simp only [Dir.exists, Dir.open, Dir.stat, Dir.root, hjoin]
  cases fs.openNode (join ['.'] (clean name)) with
  | error err => simp
  | ok n => simp

/-! ### A `Dir` of a `Dir` -/

section Nested

variable {fs : FS} {d d' : Dir} {a : List Char}

/-- The `Dir` that `Dir(a)` returns is at `a` joined to the parent's path. -/
theorem Dir.dir_path (h : d.dir fs a = .ok d') : d'.path = join d.path (clean a) := by
  unfold Dir.dir at h
  dsimp only at h
  split at h
  · cases h
  · cases h
  · cases h
    rfl

theorem Dir.dir_path_ne_nil (h : d.dir fs a = .ok d') : d'.path ≠ [] := by
  rw [Dir.dir_path h]
  exact join_ne_nil (clean_ne_nil a)

/-- A name joined onto the `Dir` of a relative `a` is the joined name joined
onto the parent. -/
theorem Dir.join_path_dir (hd : d.path ≠ []) (ha : a ≠ []) (hra : a.head? ≠ some '/')
    (h : d.dir fs a = .ok d') {b : List Char} (hrb : b.head? ≠ some '/') :
    join d'.path (clean b) = join d.path (clean (join a b)) := by
  rw [Dir.dir_path h, join_assoc hd (clean_ne_nil a) (head_clean_ne_slash hra),
    join_clean_clean ha hrb]

end Nested

/-- **A `Dir` of a `Dir`.** For every FS, every `Dir` whose path is not empty
(the root, and every `Dir` reached from it, `Dir.dir_path_ne_nil`), and
relative names `a`, not empty, and `b`: the `Dir` that `Dir(a)` returns
answers `Stat(b)`, `Read(b)`, `List(b)` and `Open(b)` exactly as its parent
answers them at `path.Join(a, b)`, and `Dir(b)` returns the `Dir` the parent's
`Dir(path.Join(a, b))` returns. `Exists` is the one method that does not
(`dir_exists_joins_twice`). -/
theorem dir_methods_join (fs : FS) {d d' : Dir} {a : List Char} (hd : d.path ≠ [])
    (ha : a ≠ []) (hra : a.head? ≠ some '/') (h : d.dir fs a = .ok d') (b : List Char)
    (hrb : b.head? ≠ some '/') :
    d'.stat fs b = d.stat fs (join a b) ∧ d'.read fs b = d.read fs (join a b) ∧
      d'.list fs b = d.list fs (join a b) ∧
      (∀ st, d'.open fs b st = d.open fs (join a b) st) ∧
      ∀ d'', d'.dir fs b = .ok d'' ↔ d.dir fs (join a b) = .ok d'' := by
  have hname : join d'.path (clean b) = join d.path (clean (join a b)) :=
    Dir.join_path_dir hd ha hra h hrb
  refine ⟨by simp only [Dir.stat, hname], by simp only [Dir.read, hname],
    by simp only [Dir.list, hname], fun st => by simp only [Dir.open, hname], fun d'' => ?_⟩
  -- both look up the same node; only the text of the error for a file differs
  have hstat : d'.stat fs (clean b) = d.stat fs (clean (join a b)) := by
    simp only [Dir.stat, clean_idem, hname]
  unfold Dir.dir
  dsimp only
  rw [hstat]
  cases d.stat fs (clean (join a b)) with
  | error err => simp
  | ok n =>
    cases n with
    | file f => simp
    | dir => simp [hname]

/-- The theorem at the `Dir` of `a` in `abFS`, for the name `b`. -/
theorem dir_methods_join_ab :
    (⟨"a".toList⟩ : Dir).stat abFS "b".toList = Dir.root.stat abFS (join "a".toList "b".toList) ∧
      (⟨"a".toList⟩ : Dir).read abFS "b".toList = Dir.root.read abFS (join "a".toList "b".toList) ∧
      (⟨"a".toList⟩ : Dir).list abFS "b".toList = Dir.root.list abFS (join "a".toList "b".toList) ∧
      (∀ st, (⟨"a".toList⟩ : Dir).open abFS "b".toList st =
        Dir.root.open abFS (join "a".toList "b".toList) st) ∧
      ∀ d'', (⟨"a".toList⟩ : Dir).dir abFS "b".toList = .ok d'' ↔
        Dir.root.dir abFS (join "a".toList "b".toList) = .ok d'' :=
  dir_methods_join abFS (by decide) (by decide) (by decide) rfl "b".toList (by decide)

/-! ### A request's calls -/

/-- A call of the template on the directory dot: `Open` or `Exists` on a
`Dir` derived from the root, or `Close` of a file it was given. -/
inductive DirCall where
  | open (d : Dir) (name : List Char)
  | exists (d : Dir) (name : List Char)
  | close (file : Nat)

/-- One call: the state after it, and the file handed to the template. -/
def DirCall.run (fs : FS) (st : DirState) : DirCall → DirState × Option Nat
  | .open d name =>
    match d.open fs name st with
    | (.ok file, st) => (st, some file)
    | (.error _, st) => (st, none)
  | .exists d name => ((d.exists fs name st).2, none)
  | .close file => ((st.close file).2, none)

/-- A request's calls in order: the state after them, and the files handed to
the template. -/
def runDirCalls (fs : FS) : DirState → List DirCall → DirState × List Nat
  | st, [] => (st, [])
  | st, c :: cs =>
    let (st', given) := c.run fs st
    let (st'', rest) := runDirCalls fs st' cs
    (st'', given.toList ++ rest)

/-- The closes among `Cleanup`'s effects, done in order. -/
def DirState.closeAll (st : DirState) : List Effect → DirState
  | [] => st
  | .close h :: effs => (st.close h).2.closeAll effs
  | _ :: effs => st.closeAll effs

/-- What holds of a request's state, given the files handed to the template:
none of them is in the opened set, every open file is in the set or was
handed out, and every handle in use is below the next one. -/
structure DirState.Inv (given : List Nat) (st : DirState) : Prop where
  opened_not_given : ∀ h ∈ st.dot.opened, h ∉ given
  files_tracked : ∀ x ∈ st.files, x.1 ∈ st.dot.opened ∨ x.1 ∈ given
  opened_lt : ∀ h ∈ st.dot.opened, h < st.next
  given_lt : ∀ h ∈ given, h < st.next

theorem DirState.inv_start (next : Nat) : (DirState.start [] next).Inv [] :=
  ⟨by simp [DirState.start], by simp [DirState.start], by simp [DirState.start], by simp⟩

section Calls

variable {fs : FS} {given : List Nat} {st : DirState}

/-- What `Open` does: on a path that does not open, nothing; on one that
does, it records one file and returns a second. The second `fsys.Open` of the
path opens, since the first did. -/
theorem Dir.open_eq (fs : FS) (d : Dir) (name : List Char) (st : DirState) :
    d.open fs name st =
      match fs.openNode (join d.path (clean name)) with
      | .error err => (.error (.wrap ("failed to open file at path '".toList ++
          join d.path (clean name) ++ "': ".toList) err), st)
      | .ok _ => (.ok (st.next + 1), ⟨⟨st.dot.opened ++ [st.next]⟩,
          st.files ++ [(st.next, join d.path (clean name)), (st.next + 1, join d.path (clean name))],
          st.next + 2⟩) := by
  unfold Dir.open
  dsimp only
  cases fs.openNode (join d.path (clean name)) with
  | error err => rfl
  | ok n => simp [DirState.openFile]

theorem DirState.Inv.close (h : st.Inv given) (file : Nat) : (st.close file).2.Inv given := by
  refine ⟨?_, fun x hx => ?_, ?_, ?_⟩
  · simpa using h.opened_not_given
  · simpa using h.files_tracked x ((st.mem_close_files file x).mp hx).1
  · simpa using h.opened_lt
  · simpa using h.given_lt

/-- A successful `Open` keeps the invariant, with its second file handed out. -/
theorem DirState.Inv.opened (h : st.Inv given) (p : List Char) :
    (⟨⟨st.dot.opened ++ [st.next]⟩, st.files ++ [(st.next, p), (st.next + 1, p)], st.next + 2⟩ :
      DirState).Inv (given ++ [st.next + 1]) := by
  refine ⟨fun k hk => ?_, fun x hx => ?_, fun k hk => ?_, fun k hk => ?_⟩
  · simp only [List.mem_append, List.mem_singleton] at hk ⊢
    rcases hk with hk | rfl
    · rintro (hg | rfl)
      · exact h.opened_not_given k hk hg
      · exact absurd (h.opened_lt _ hk) (by omega)
    · rintro (hg | hg)
      · exact absurd (h.given_lt _ hg) (by omega)
      · omega
  · simp only [List.mem_append, List.mem_cons, List.not_mem_nil, or_false] at hx ⊢
    rcases hx with hx | rfl | rfl
    · rcases h.files_tracked x hx with hx | hx
      · exact .inl (.inl hx)
      · exact .inr (.inl hx)
    · exact .inl (.inr rfl)
    · exact .inr (.inr rfl)
  · show k < st.next + 2
    simp only [List.mem_append, List.mem_singleton] at hk
    rcases hk with hk | rfl
    · have := h.opened_lt k hk
      omega
    · omega
  · show k < st.next + 2
    simp only [List.mem_append, List.mem_singleton] at hk
    rcases hk with hk | rfl
    · have := h.given_lt k hk
      omega
    · omega

/-- A handed-out file that is no longer open can be forgotten. -/
theorem DirState.Inv.forget {k : Nat} (h : st.Inv (given ++ [k])) (hk : ∀ x ∈ st.files, x.1 ≠ k) :
    st.Inv given := by
  refine ⟨fun j hj hg => h.opened_not_given j hj (List.mem_append_left _ hg), fun x hx => ?_,
    h.opened_lt, fun j hj => h.given_lt j (List.mem_append_left _ hj)⟩
  rcases h.files_tracked x hx with hx' | hx'
  · exact .inl hx'
  · rcases List.mem_append.mp hx' with hx' | hx'
    · exact .inr hx'
    · exact absurd (List.mem_singleton.mp hx') (hk x hx)

/-- **One call keeps the invariant.** -/
theorem DirState.Inv.call (h : st.Inv given) (c : DirCall) :
    (c.run fs st).1.Inv (given ++ (c.run fs st).2.toList) := by
  cases c with
  | «open» d name =>
    simp only [DirCall.run, Dir.open_eq]
    cases fs.openNode (join d.path (clean name)) with
    | error err => simpa using h
    | ok n => exact h.opened _
  | «exists» d name =>
    simp only [DirCall.run, Dir.exists, Dir.open_eq]
    cases fs.openNode (join d.path (clean (join d.path (clean name)))) with
    | error err => simpa using h
    | ok n =>
      -- the file `Exists` is handed is closed at once, and never reaches the template
      simp only [Option.toList, List.append_nil]
      have hclosed := (h.opened (join d.path (clean (join d.path (clean name))))).close (st.next + 1)
      refine hclosed.forget fun x hx => ((DirState.mem_close_files _ _ x).mp hx).2
  | close file => simpa [DirCall.run] using h.close file

/-- **Every run of calls keeps the invariant.** -/
theorem DirState.Inv.run (h : st.Inv given) (calls : List DirCall) :
    (runDirCalls fs st calls).1.Inv (given ++ (runDirCalls fs st calls).2) := by
  induction calls generalizing st given with
  | nil => simpa [runDirCalls] using h
  | cons c cs ih =>
    have hc : (c.run fs st).1.Inv (given ++ (c.run fs st).2.toList) := h.call c
    simpa [runDirCalls, List.append_assoc] using ih hc

end Calls

/-! ### What `Cleanup` closes -/

/-- Closing a list of handles leaves open exactly the other files. -/
theorem DirState.mem_closeAll (st : DirState) (hs : List Nat) (x : Nat × List Char) :
    x ∈ (st.closeAll (hs.map .close)).files ↔ x ∈ st.files ∧ x.1 ∉ hs := by
  induction hs generalizing st with
  | nil => simp [DirState.closeAll]
  | cons h hs ih =>
    simp only [List.map_cons, DirState.closeAll, ih, DirState.mem_close_files, List.mem_cons]
    tauto

/-- **What `Cleanup` closes.** Over every sequence of `Open`, `Exists` and
`Close` calls of a request, no file handed to the template is in the opened
set; so `DotDirConfig.Cleanup` closes exactly the files the template was
never given, and every file it was given and did not close stays open. -/
theorem cleanup_closes_untracked (fs : FS) (next : Nat) (calls : List DirCall)
    (cfg : DotDirConfig) (i : Nat) (err : Option Err) :
    let run := runDirCalls fs (DirState.start [] next) calls
    (∀ h ∈ run.2, h ∉ run.1.dot.opened) ∧
      ∀ x, x ∈ (run.1.closeAll (DotField.cleanup i (.dir cfg run.1.dot) err).2).files ↔
        x ∈ run.1.files ∧ x.1 ∈ run.2 := by
  intro run
  have hrun : (runDirCalls fs (DirState.start [] next) calls).1.Inv
      ([] ++ (runDirCalls fs (DirState.start [] next) calls).2) :=
    (DirState.inv_start next).run calls
  have hinv : run.1.Inv run.2 := by simpa using hrun
  refine ⟨fun h hh ho => hinv.opened_not_given h ho hh, fun x => ?_⟩
  -- the cleanup closes the opened set, and every open file is in it or handed out
  rw [show (DotField.cleanup i (.dir cfg run.1.dot) err).2 = run.1.dot.opened.map .close from rfl,
    DirState.mem_closeAll]
  constructor
  · rintro ⟨hx, hno⟩
    exact ⟨hx, (hinv.files_tracked x hx).resolve_left hno⟩
  · rintro ⟨hx, hg⟩
    exact ⟨hx, fun ho => hinv.opened_not_given _ ho hg⟩

/-! ### What `Open` records -/

/-- `Open` of a file at the root of a fresh request: the file recorded in the
opened set is handle `0`, and the template gets handle `1`, which is not in
the set. `Cleanup` closes handle `0` only, and handle `1` stays open. -/
theorem dir_open_returns_untracked :
    runDirCalls abFS (DirState.start [] 0) [.open Dir.root "a/b".toList] =
        (⟨⟨[0]⟩, [(0, "a/b".toList), (1, "a/b".toList)], 2⟩, [1]) ∧
      (DotField.cleanup 0 (.dir ⟨"Dir".toList, none, ".".toList⟩ ⟨[0]⟩) none).2 = [.close 0] ∧
      ((⟨⟨[0]⟩, [(0, "a/b".toList), (1, "a/b".toList)], 2⟩ : DirState).closeAll
        [.close 0]).files = [(1, "a/b".toList)] :=
  ⟨rfl, rfl, rfl⟩

end Xtemplate

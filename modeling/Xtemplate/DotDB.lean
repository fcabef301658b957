import Xtemplate.Dot
import Xtemplate.Go.Map

/-!
The query methods of `DotDB` (`dot_db.go`): `QueryRows`, `QueryRow` and
`QueryVal`.

Each statement first opens the request's transaction if none is open, then
runs the query in it. `QueryRows` scans every row into one cell per column
and copies the cells into a `map[string]any` keyed by column name, so a
column's value replaces that of an earlier column of the same name.
`QueryRow` wants exactly one row, and `QueryVal` a row whose map has exactly
one entry: one distinct column name, however many columns carry it.

The driver's answer to the query is given: the result set, with its column
names, its rows and the error `Rows.Err` reports after the last row, or the
query's error. `Scan` into `*any` cells does not fail on a row of the
result's width. The deferred debug log is left out.
-/

namespace Xtemplate

open Go

/-- What `tx.Query` returns: the column names, the rows, one value per column,
and what `Rows.Err` reports after the last row. -/
structure ResultSet (α : Type) where
  columns : List (List Char)
  rows : List (List α)
  rows_width : ∀ r ∈ rows, r.length = columns.length
  err : Option Err

/-- `makeTx`: begin a transaction unless one is open; a failed `BeginTx`
leaves none. -/
def DotDB.makeTx (d : DotDB) (begin : Except Err Tx) : Option Err × DotDB :=
  match d.tx with
  | some _ => (none, d)
  | none =>
    match begin with
    | .ok tx => (none, ⟨some tx⟩)
    | .error err => (some err, ⟨none⟩)

/-- The body of the scan loop: `row[c] = *out[i].(*any)` for each column, into
`make(map[string]any, n)`. -/
def scanRow {α : Type} (columns : List (List Char)) (values : List α) : Map (List Char) α :=
  (columns.zip values).foldl (fun row e => row.set e.1 e.2) Map.empty

/-- `QueryRows(query, params...)`: the rows and the error, and the `DotDB`
with its transaction. -/
def DotDB.queryRows {α : Type} (d : DotDB) (begin : Except Err Tx)
    (answer : Except Err (ResultSet α)) : (List (Map (List Char) α) × Option Err) × DotDB :=
  match d.makeTx begin with
  | (some err, d) => (([], some err), d)
  | (none, d) =>
    match answer with
    | .error err => (([], some (.wrap "failed to execute query: ".toList err)), d)
    | .ok result =>
      let rows := result.rows.foldl (fun rows values => rows ++ [scanRow result.columns values]) []
      ((rows, result.err), d)

/-- `QueryRow(query, params...)`. -/
def DotDB.queryRow {α : Type} (d : DotDB) (begin : Except Err Tx)
    (answer : Except Err (ResultSet α)) : Except Err (Map (List Char) α) × DotDB :=
  match d.queryRows begin answer with
  | ((_, some err), d) => (.error err, d)
  | ((rows, none), d) =>
    match rows with
    | [row] => (.ok row, d)
    | _ => (.error (errorf ("query returned " ++ toString rows.length ++
        " rows, expected exactly 1 row")), d)

/-- `QueryVal(query, params...)`: the value, or an error or the panic after
the loop over the row. -/
def DotDB.queryVal {α : Type} (d : DotDB) (begin : Except Err Tx)
    (answer : Except Err (ResultSet α)) : Except (Abort Err) α × DotDB :=
  match d.queryRow begin answer with
  | (.error err, d) => (.error (.error err), d)
  | (.ok row, d) =>
    if row.len ≠ 1 then
      (.error (.error (errorf ("query returned " ++ toString row.len ++ " columns, expected 1"))), d)
    else
      match row.toList with
      | (_, v) :: _ => (.ok v, d)
      | [] => (.error (.panic "impossible condition".toList), d)

section Query

variable {α : Type} {d : DotDB} {begin : Except Err Tx} {answer : Except Err (ResultSet α)}

/-- The scan loop appends one map per row, in order. -/
theorem foldl_append_scanRow (columns : List (List Char)) (rows : List (List α)) :
    ∀ acc : List (Map (List Char) α),
      rows.foldl (fun rows values => rows ++ [scanRow columns values]) acc =
        acc ++ rows.map (scanRow columns) := by
  induction rows with
  | nil => simp
  | cons r rows ih =>
    intro acc
    rw [List.foldl_cons, ih, List.map_cons, List.append_assoc, List.singleton_append]

/-- A scanned row takes each name to the value of the last column of that
name, and has one entry per distinct name. -/
theorem scanRow_get {columns : List (List Char)} {values : List α} (k : List Char) :
    (scanRow columns values).get k = ((columns.zip values).reverse.lookup k) :=
  Map.get_ofList _ k

theorem scanRow_len {columns : List (List Char)} {values : List α}
    (h : values.length = columns.length) : (scanRow columns values).len = columns.toFinset.card := by
  rw [scanRow, ← Map.ofList, Map.len_ofList, List.map_fst_zip (by omega)]

/-- A name has a value in a scanned row of the result's width exactly when
some column carries it. -/
theorem scanRow_get_isSome {columns : List (List Char)} {values : List α}
    (h : values.length = columns.length) (k : List Char) :
    ((scanRow columns values).get k).isSome ↔ k ∈ columns := by
  rw [scanRow_get, isSome_lookup_iff, List.map_reverse, List.mem_reverse,
    List.map_fst_zip (by omega)]

/-- `QueryRows` when the transaction and the query succeed. -/
theorem queryRows_of_ok {d' : DotDB} {result : ResultSet α} (htx : d.makeTx begin = (none, d'))
    (hans : answer = .ok result) :
    d.queryRows begin answer = ((result.rows.map (scanRow result.columns), result.err), d') := by
  simp only [DotDB.queryRows, htx, hans, foldl_append_scanRow, List.nil_append]

/-- `QueryRow` succeeds exactly when the transaction and the query do, `Rows.Err`
is nil and there is one row: its map. -/
theorem queryRow_eq_ok_iff {row : Map (List Char) α} :
    (d.queryRow begin answer).1 = .ok row ↔
      ∃ d' result values, d.makeTx begin = (none, d') ∧ answer = .ok result ∧
        result.err = none ∧ result.rows = [values] ∧ row = scanRow result.columns values := by
  rcases htx : d.makeTx begin with ⟨_ | err, d'⟩
  case none =>
    cases hans : answer with
    | error err => simp [DotDB.queryRow, DotDB.queryRows, htx]
    | ok result =>
      rw [DotDB.queryRow, queryRows_of_ok htx rfl]
      cases herr : result.err with
      | some err => simp [herr]
      | none =>
        rcases hrows : result.rows with _ | ⟨values, _ | ⟨values', rest⟩⟩ <;>
          simp [hrows, herr, eq_comm]
  case some => simp [DotDB.queryRow, DotDB.queryRows, htx]

/-- `QueryVal` on the row `QueryRow` gives: its value when the row is one
entry. -/
theorem queryVal_of_queryRow {row : Map (List Char) α} {d'' : DotDB}
    (h : d.queryRow begin answer = (.ok row, d'')) {v : α} :
    (d.queryVal begin answer).1 = .ok v ↔ ∃ k, row.toList = [(k, v)] := by
  unfold DotDB.queryVal
  rw [h]
  dsimp only
  by_cases hlen : row.len = 1
  · obtain ⟨⟨k, v'⟩, rest, hl⟩ := Map.exists_toList_cons (by omega : row.len ≠ 0)
    have hrest : rest = [] := by
      have : row.len = rest.length + 1 := congrArg List.length hl
      exact List.eq_nil_of_length_eq_zero (by omega)
    subst hrest
    simp [hlen, hl, eq_comm]
  · simp only [hlen, ne_eq, not_false_eq_true, ↓reduceIte, reduceCtorEq, false_iff, not_exists]
    intro k hk
    exact hlen (congrArg List.length hk)

/-- `QueryVal` succeeds exactly when `QueryRow` does with a row whose column
names are one name, however many columns carry it; the value is that of the
last of those columns. -/
theorem queryVal_eq_ok_iff {v : α} :
    (d.queryVal begin answer).1 = .ok v ↔
      ∃ d' result values c, d.makeTx begin = (none, d') ∧ answer = .ok result ∧
        result.err = none ∧ result.rows = [values] ∧ result.columns.toFinset = {c} ∧
        (result.columns.zip values).reverse.lookup c = some v := by
  rcases hrow : d.queryRow begin answer with ⟨_ | row, d''⟩
  case error err =>
    -- `QueryRow` failed, so no row qualifies
    have hfail : (d.queryVal begin answer).1 = .error (.error err) := by
      simp [DotDB.queryVal, hrow]
    rw [hfail]
    simp only [reduceCtorEq, false_iff, not_exists, not_and]
    intro d' result values c htx hans herr hrows _ _
    have := queryRow_eq_ok_iff.mpr ⟨d', result, values, htx, hans, herr, hrows, rfl⟩
    simp [hrow] at this
  case ok =>
    obtain ⟨d', result, values, htx, hans, herr, hrows, rfl⟩ :=
      queryRow_eq_ok_iff.mp (congrArg Prod.fst hrow)
    have hwidth := result.rows_width values (by simp [hrows])
    rw [queryVal_of_queryRow hrow]
    simp only [Map.toList_eq_singleton_iff, scanRow_len hwidth, scanRow_get, Finset.card_eq_one]
    constructor
    · rintro ⟨k, ⟨c, hc⟩, hv⟩
      -- the name found is a column's, so the one name
      have hk : k ∈ result.columns :=
        (scanRow_get_isSome hwidth k).mp (by rw [scanRow_get, hv]; rfl)
      obtain rfl : k = c := Finset.mem_singleton.mp (hc ▸ List.mem_toFinset.mpr hk)
      exact ⟨d', result, values, k, htx, hans, herr, hrows, hc, hv⟩
    · rintro ⟨d₁, result₁, values₁, c, -, hans₁, -, hrows₁, hc, hv⟩
      rw [hans] at hans₁
      cases hans₁
      rw [hrows, List.cons.injEq] at hrows₁
      obtain ⟨rfl, -⟩ := hrows₁
      exact ⟨c, ⟨c, hc⟩, hv⟩

/-- The loop over the row never reaches the `panic`: a row that passes the
check has an entry. -/
theorem queryVal_ne_panic (msg : List Char) : (d.queryVal begin answer).1 ≠ .error (.panic msg) := by
  unfold DotDB.queryVal
  rcases d.queryRow begin answer with ⟨_ | row, d''⟩
  case error => simp
  case ok =>
    dsimp only
    split
    · simp
    · rename_i hlen
      obtain ⟨e, rest, hl⟩ := Map.exists_toList_cons (by omega : row.len ≠ 0)
      simp [hl]

/-- **What `QueryVal` returns.** It returns a value `v` exactly when the
transaction opens or is open, the query succeeds, `Rows.Err` is nil, the
result has one row and its column names are one name `c`, and `v` is then the
value of the last column named `c`; and it never reaches its panic. -/
theorem queryVal_outcomes :
    (∀ v, (d.queryVal begin answer).1 = .ok v ↔
      ∃ d' result values c, d.makeTx begin = (none, d') ∧ answer = .ok result ∧
        result.err = none ∧ result.rows = [values] ∧ result.columns.toFinset = {c} ∧
        (result.columns.zip values).reverse.lookup c = some v) ∧
      ∀ msg, (d.queryVal begin answer).1 ≠ .error (.panic msg) :=
  ⟨fun _ => queryVal_eq_ok_iff, queryVal_ne_panic⟩

/-- `QueryRows` returns one map per row of the result, in order, with the
error `Rows.Err` reports; each map has exactly the result's column names, each
with the value of the last column of that name in its row. -/
theorem queryRows_maps {d' : DotDB} {result : ResultSet α} (htx : d.makeTx begin = (none, d'))
    (hans : answer = .ok result) :
    (d.queryRows begin answer).1 = (result.rows.map (scanRow result.columns), result.err) ∧
      ∀ values ∈ result.rows, ∀ k,
        (((scanRow result.columns values).get k).isSome ↔ k ∈ result.columns) ∧
        (scanRow result.columns values).get k = (result.columns.zip values).reverse.lookup k := by
  refine ⟨by rw [queryRows_of_ok htx hans], fun values hv k => ⟨?_, scanRow_get k⟩⟩
  exact scanRow_get_isSome (result.rows_width values hv) k

end Query

/-- A result of one row and two columns, both named `a`. -/
def twoColumnsNamedA : ResultSet Nat where
  columns := ["a".toList, "a".toList]
  rows := [[1, 2]]
  rows_width := by decide
  err := none

/-- A `DotDB` whose transaction is open. -/
def dotDBInTx : DotDB := ⟨some ⟨none, none⟩⟩

theorem queryRows_maps_two_columns :
    (dotDBInTx.queryRows (.error (errorf "no pool")) (.ok twoColumnsNamedA)).1 =
        (twoColumnsNamedA.rows.map (scanRow twoColumnsNamedA.columns), twoColumnsNamedA.err) ∧
      ∀ values ∈ twoColumnsNamedA.rows, ∀ k,
        (((scanRow twoColumnsNamedA.columns values).get k).isSome ↔
          k ∈ twoColumnsNamedA.columns) ∧
        (scanRow twoColumnsNamedA.columns values).get k =
          (twoColumnsNamedA.columns.zip values).reverse.lookup k :=
  queryRows_maps rfl rfl

/-- Two columns named `a`: `QueryRows` keeps the second value only, and
`QueryVal` returns it, though the row has two columns. -/
theorem queryVal_repeated_column :
    twoColumnsNamedA.columns.length = 2 ∧
      (dotDBInTx.queryRows (.error (errorf "no pool")) (.ok twoColumnsNamedA)).1.1.map Map.toList =
        [[("a".toList, 2)]] ∧
      (dotDBInTx.queryVal (.error (errorf "no pool")) (.ok twoColumnsNamedA)).1 = .ok 2 :=
  ⟨rfl, rfl, rfl⟩

end Xtemplate

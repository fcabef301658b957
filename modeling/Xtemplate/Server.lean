import Xtemplate.Instance

/-!
`Server` (`server.go`) and the context check of `Instance.ServeHTTP`
(`instance.go`).

`Reload` and `Stop` hold the server's mutex for their whole body, so they
never interleave with each other: each is one step here. `Reload` makes a
context for the new instance and builds it; on an error it cancels that
context, on success it stores the instance, cancels the old one's context and
keeps the new cancel. A request takes two steps that calls can come between:
the handler loads the instance pointer, and `ServeHTTP` then checks that
instance's context and routes the request.

`server_invariant` is the invariant of every run of calls that return, with
options that keep the context: either no instance and no cancel, or the
stored instance's context live and `x.cancel` cancelling exactly it, with
every other context the server made cancelled. An option that sets the
context (`reload_option_replaces_context`) and a build that panics
(`reload_panic_leaves_context`) break it. `handler_interleavings` and
`reload_leaks_pools` are runs that show what the handler and the providers do
across reloads.
-/

namespace Xtemplate

open Go

/-! ### `Server` -/

/-- `Server`: the instance pointer (`instance`, a keyword here), the cancel
of the stored instance's context, and the config. -/
structure Server where
  instancePtr : Option Instance
  cancel : Option Nat
  config : Config

/-- `if x.cancel != nil { x.cancel() }`. -/
def World.cancelOpt (w : World) : Option Nat → World
  | some ctx => w.cancel ctx
  | none => w

section Calls

variable (codecs : Codecs) (parse : TemplateParser)

/-- `Server.Reload(cfgs...)`, with what the outside answers now. -/
def Server.reload (env : Env) (x : Server) (cfgs : List ConfigOption) (w : World) :
    Except (Abort Err) Unit × Server × World :=
  -- `context.WithCancel(x.config.Ctx)`
  let (ctx, w) := w.fresh
  let w := { w with contexts := w.contexts ++ [ctx] }
  match Config.instance env codecs parse { x.config with ctx } cfgs w with
  | (.error (.error err), w) => (.error (.error err), x, w.cancel ctx)
  -- a panic unwinds past `newcancel()`, and only the mutex is released
  | (.error (.panic msg), w) => (.error (.panic msg), x, w)
  | (.ok (new, _, _), w) =>
    -- the `CompareAndSwap(old, new_)` succeeds: under the mutex nothing stored
    -- the pointer since the `Load`
    (.ok (), { x with instancePtr := some new, cancel := some ctx }, w.cancelOpt x.cancel)

/-- `Server.Stop`. -/
def Server.stop (x : Server) (w : World) : Server × World :=
  ({ x with cancel := none, instancePtr := none }, w.cancelOpt x.cancel)

/-- `Config.Server(cfgs...)`: the options are applied to the server's config,
and the first `Reload` must succeed. -/
def Config.server (env : Env) (config : Config) (cfgs : List ConfigOption) (w : World) :
    Except (Abort Err) Server × World :=
  match config.defaults.options cfgs with
  | .error err => (.error (.error err), w)
  | .ok config =>
    match (Server.mk none none config).reload codecs parse env [] w with
    | (.ok (), x, w) => (.ok x, w)
    | (.error abort, _, w) => (.error abort, w)

/-- A call on a server. -/
inductive Call where
  | reload (env : Env) (cfgs : List ConfigOption)
  | stop

/-- One call. -/
def Server.call (x : Server) (w : World) : Call → Except (Abort Err) Unit × Server × World
  | .reload env cfgs => x.reload codecs parse env cfgs w
  | .stop => (.ok (), x.stop w)

/-- A run of calls, each on the server and world the one before left. -/
def Server.run : Server → World → List Call → Server × World
  | x, w, [] => (x, w)
  | x, w, c :: cs => Server.run (x.call codecs parse w c).2.1 (x.call codecs parse w c).2.2 cs

/-- Whether a call returned, with or without an error, rather than
panicked. -/
def returned : Except (Abort Err) Unit → Bool
  | .error (.panic _) => false
  | _ => true

/-- Every call of the run returns. -/
def Server.Returns : Server → World → List Call → Prop
  | _, _, [] => True
  | x, w, c :: cs =>
    returned (x.call codecs parse w c).1 = true ∧
      Server.Returns (x.call codecs parse w c).2.1 (x.call codecs parse w c).2.2 cs

end Calls

/-- The options of a call keep `Ctx`. -/
def Call.KeepsCtx : Call → Prop
  | .reload _ cfgs => ∀ o ∈ cfgs, Xtemplate.KeepsCtx o
  | .stop => True

/-! ### The invariant -/

/-- Every context and every cancelled context is a handle already handed
out. -/
def World.WF (w : World) : Prop := ∀ c ∈ w.contexts ++ w.cancelled, c < w.nextHandle

/-- What holds of a server between calls, for the contexts `base` that
existed before it. -/
structure Server.Inv (x : Server) (w : World) (base : List Nat) : Prop where
  /-- No instance and no cancel, or the instance's context live and
  `x.cancel` cancelling exactly it. -/
  state : (x.instancePtr = none ∧ x.cancel = none) ∨
    ∃ i, x.instancePtr = some i ∧ x.cancel = some i.config.ctx ∧ i.config.ctx ∉ w.cancelled
  /-- Every other context the server made is cancelled. -/
  others : ∀ c ∈ w.contexts, c ∉ base → (∀ i, x.instancePtr = some i → i.config.ctx ≠ c) →
    c ∈ w.cancelled
  /-- The stored instance's context is one the server made. -/
  current : ∀ i, x.instancePtr = some i → i.config.ctx ∈ w.contexts
  wf : w.WF

@[simp] theorem World.cancel_contexts (w : World) (ctx : Nat) :
    (w.cancel ctx).contexts = w.contexts := rfl

@[simp] theorem World.cancel_cancelled (w : World) (ctx : Nat) :
    (w.cancel ctx).cancelled = w.cancelled ++ [ctx] := rfl

@[simp] theorem World.cancel_nextHandle (w : World) (ctx : Nat) :
    (w.cancel ctx).nextHandle = w.nextHandle := rfl

@[simp] theorem World.cancelOpt_contexts (w : World) (o : Option Nat) :
    (w.cancelOpt o).contexts = w.contexts := by
  cases o <;> rfl

@[simp] theorem World.cancelOpt_cancelled (w : World) (o : Option Nat) :
    (w.cancelOpt o).cancelled = w.cancelled ++ o.toList := by
  cases o <;> simp [World.cancelOpt]

@[simp] theorem World.cancelOpt_nextHandle (w : World) (o : Option Nat) :
    (w.cancelOpt o).nextHandle = w.nextHandle := by
  cases o <;> rfl

/-- The context `x.cancel` cancels is the stored instance's, one the server
made. -/
theorem Server.Inv.cancel_mem {x : Server} {w : World} {base : List Nat} (hinv : x.Inv w base)
    {c : Nat} (hc : x.cancel = some c) : c ∈ w.contexts ∧ ∀ i, x.instancePtr = some i → i.config.ctx = c := by
  rcases hinv.state with ⟨-, hnone⟩ | ⟨i, hi, hci, -⟩
  · rw [hnone] at hc
    cases hc
  · rw [hci, Option.some.injEq] at hc
    subst hc
    refine ⟨hinv.current i hi, fun j hj => ?_⟩
    rw [hi, Option.some.injEq] at hj
    rw [hj]

section Steps

variable {codecs : Codecs} {parse : TemplateParser}

theorem grows_of_instance_eq {env : Env} {config : Config} {cfgs : List ConfigOption}
    {w W : World} {r : Except (Abort Err) (Instance × InstanceStats × List InstanceRoute)}
    (h : Config.instance env codecs parse config cfgs w = (r, W)) : w.Grows W := by
  have hg := Config.instance_grows env codecs parse config cfgs w
  rw [h] at hg
  exact hg

/-- What a `Reload` that returns does: the build runs in a fresh context
recorded as made, and then either the context is cancelled and the server
kept, or the new instance, which runs in that context, is stored with its
cancel, and the old context cancelled. -/
theorem Server.reload_cases {env : Env} {x : Server} {cfgs : List ConfigOption} {w : World}
    (hkeep : ∀ o ∈ cfgs, KeepsCtx o) (hret : returned (x.reload codecs parse env cfgs w).1 = true) :
    ∃ W : World, { w with nextHandle := w.nextHandle + 1,
                          contexts := w.contexts ++ [w.nextHandle] }.Grows W ∧
      ((x.reload codecs parse env cfgs w).2 = (x, W.cancel w.nextHandle) ∨
        ∃ new : Instance, new.config.ctx = w.nextHandle ∧
          (x.reload codecs parse env cfgs w).2 =
            ({ x with instancePtr := some new, cancel := some w.nextHandle }, W.cancelOpt x.cancel)) := by
  unfold Server.reload at hret ⊢
  dsimp only at hret ⊢
  -- the build's outcome decides the branch; the world it leaves has grown
  split
  · rename_i err W heq
    exact ⟨W, grows_of_instance_eq heq, .inl rfl⟩
  · rename_i msg W heq
    rw [heq] at hret
    cases hret
  · rename_i new stats routes W heq
    refine ⟨W, grows_of_instance_eq heq, .inr ⟨new, ?_, rfl⟩⟩
    exact Config.instance_ctx hkeep (congrArg Prod.fst heq)

/-- A failed `Reload` leaves the server as it was. -/
theorem Server.reload_error_server {env : Env} {x : Server} {cfgs : List ConfigOption} {w : World}
    {err : Err} (h : (x.reload codecs parse env cfgs w).1 = .error (.error err)) :
    (x.reload codecs parse env cfgs w).2.1 = x := by
  unfold Server.reload at h ⊢
  dsimp only at h ⊢
  split
  · rfl
  · rfl
  · rename_i heq
    rw [heq] at h
    cases h

/-- A `Reload` that returns keeps the invariant. -/
theorem Server.Inv.reload {env : Env} {x : Server} {cfgs : List ConfigOption} {w : World}
    {base : List Nat} (hinv : x.Inv w base) (hkeep : ∀ o ∈ cfgs, KeepsCtx o)
    (hret : returned (x.reload codecs parse env cfgs w).1 = true) :
    (x.reload codecs parse env cfgs w).2.1.Inv (x.reload codecs parse env cfgs w).2.2 base := by
  obtain ⟨W, hW, hcases⟩ := Server.reload_cases hkeep hret
  -- the contexts made before are older than the fresh one
  have hold : ∀ c ∈ w.contexts ++ w.cancelled, c < w.nextHandle := hinv.wf
  have hctxs : W.contexts = w.contexts ++ [w.nextHandle] := hW.contexts_eq
  have hcanc : W.cancelled = w.cancelled := hW.cancelled_eq
  have hnext : w.nextHandle + 1 ≤ W.nextHandle := hW.nextHandle_le
  rcases hcases with heq | ⟨new, hnew, heq⟩
  · -- the build failed: its context is cancelled and the server kept
    rw [heq]
    dsimp only
    refine ⟨?_, ?_, ?_, ?_⟩
    · rcases hinv.state with hnone | ⟨i, hi, hci, hlive⟩
      · exact .inl hnone
      · refine .inr ⟨i, hi, hci, ?_⟩
        have hlt := hold _ (List.mem_append_left _ (hinv.current i hi))
        simp only [World.cancel_cancelled, hcanc, List.mem_append, List.mem_singleton, not_or]
        exact ⟨hlive, by omega⟩
    · intro c hc hbase hcur
      simp only [World.cancel_contexts, hctxs, List.mem_append, List.mem_singleton] at hc
      simp only [World.cancel_cancelled, hcanc, List.mem_append, List.mem_singleton]
      rcases hc with hc | rfl
      · exact .inl (hinv.others c hc hbase hcur)
      · exact .inr rfl
    · intro i hi
      simp only [World.cancel_contexts, hctxs]
      exact List.mem_append_left _ (hinv.current i hi)
    · intro c hc
      simp only [World.cancel_contexts, World.cancel_cancelled, World.cancel_nextHandle, hctxs,
        hcanc, List.mem_append, List.mem_singleton] at hc ⊢
      rcases hc with (hc | rfl) | (hc | rfl)
      · have := hold c (List.mem_append_left _ hc)
        omega
      · omega
      · have := hold c (List.mem_append_right _ hc)
        omega
      · omega
  · -- the build succeeded: the new instance is stored and the old context cancelled
    rw [heq]
    dsimp only
    have hcancel : ∀ c ∈ x.cancel.toList, c ∈ w.contexts := by
      intro c hc
      exact (hinv.cancel_mem (Option.mem_toList.mp hc)).1
    refine ⟨?_, ?_, ?_, ?_⟩
    · refine .inr ⟨new, rfl, by rw [hnew], ?_⟩
      rw [hnew, World.cancelOpt_cancelled, hcanc, List.mem_append, not_or]
      constructor
      · intro hmem
        have := hold _ (List.mem_append_right _ hmem)
        omega
      · intro hmem
        have := hold _ (List.mem_append_left _ (hcancel _ hmem))
        omega
    · intro c hc hbase hcur
      have hne : c ≠ w.nextHandle := fun hc' => hcur new rfl (hnew.trans hc'.symm)
      simp only [World.cancelOpt_contexts, hctxs, List.mem_append, List.mem_singleton] at hc
      rw [World.cancelOpt_cancelled, hcanc, List.mem_append]
      rcases hc with hc | hc
      · -- the old instance's context is the one `x.cancel` cancels
        by_cases hold' : ∃ i, x.instancePtr = some i ∧ i.config.ctx = c
        · obtain ⟨i, hi, rfl⟩ := hold'
          rcases hinv.state with ⟨hnone, -⟩ | ⟨j, hj, hcj, -⟩
          · rw [hnone] at hi
            cases hi
          · rw [hi, Option.some.injEq] at hj
            subst hj
            exact .inr (by rw [hcj]; exact List.mem_singleton_self _)
        · simp only [not_exists, not_and] at hold'
          exact .inl (hinv.others c hc hbase hold')
      · exact absurd hc hne
    · intro i hi
      cases hi
      rw [World.cancelOpt_contexts, hctxs, hnew]
      exact List.mem_append_right _ (List.mem_singleton_self _)
    · intro c hc
      simp only [World.cancelOpt_contexts, World.cancelOpt_cancelled, World.cancelOpt_nextHandle,
        hctxs, hcanc, List.mem_append, List.mem_singleton] at hc ⊢
      rcases hc with (hc | rfl) | (hc | hc)
      · have := hold c (List.mem_append_left _ hc)
        omega
      · omega
      · have := hold c (List.mem_append_right _ hc)
        omega
      · have := hold c (List.mem_append_left _ (hcancel c hc))
        omega

/-- `Stop` keeps the invariant, in its first state. -/
theorem Server.Inv.stop {x : Server} {w : World} {base : List Nat} (hinv : x.Inv w base) :
    (x.stop w).1.Inv (x.stop w).2 base := by
  refine ⟨.inl ⟨rfl, rfl⟩, ?_, (fun i hi => by cases hi), ?_⟩
  · intro c hc hbase _
    simp only [Server.stop, World.cancelOpt_contexts] at hc
    simp only [Server.stop, World.cancelOpt_cancelled, List.mem_append]
    -- the stored instance's context is the one `x.cancel` cancels
    rcases hinv.state with ⟨hnone, -⟩ | ⟨i, hi, hci, -⟩
    · exact .inl (hinv.others c hc hbase (fun i hi => by rw [hnone] at hi; cases hi))
    · by_cases hic : i.config.ctx = c
      · exact .inr (by rw [hci, hic]; exact List.mem_singleton_self _)
      · refine .inl (hinv.others c hc hbase fun j hj => ?_)
        rw [hi, Option.some.injEq] at hj
        rw [← hj]
        exact hic
  · intro c hc
    simp only [Server.stop, World.cancelOpt_contexts, World.cancelOpt_cancelled,
      World.cancelOpt_nextHandle, List.mem_append] at hc ⊢
    rcases hc with hc | hc | hc
    · exact hinv.wf c (List.mem_append_left _ hc)
    · exact hinv.wf c (List.mem_append_right _ hc)
    · exact hinv.wf c (List.mem_append_left _ (hinv.cancel_mem (Option.mem_toList.mp hc)).1)

/-- A call that returns keeps the invariant. -/
theorem Server.Inv.call {x : Server} {w : World} {base : List Nat} {c : Call}
    (hinv : x.Inv w base) (hkeep : c.KeepsCtx) (hret : returned (x.call codecs parse w c).1 = true) :
    (x.call codecs parse w c).2.1.Inv (x.call codecs parse w c).2.2 base := by
  cases c with
  | reload env cfgs => exact hinv.reload hkeep hret
  | stop => exact hinv.stop

/-- A run of calls that return keeps the invariant. -/
theorem Server.Inv.run {x : Server} {w : World} {base : List Nat} {calls : List Call}
    (hinv : x.Inv w base) (hkeep : ∀ c ∈ calls, c.KeepsCtx)
    (hret : x.Returns codecs parse w calls) :
    (x.run codecs parse w calls).1.Inv (x.run codecs parse w calls).2 base := by
  induction calls generalizing x w with
  | nil => exact hinv
  | cons c calls ih =>
    obtain ⟨hret₁, hrest⟩ := hret
    exact ih (hinv.call (hkeep c List.mem_cons_self) hret₁)
      (fun c' hc' => hkeep c' (List.mem_cons_of_mem _ hc')) hrest

/-- The server `Config.Server` returns meets the invariant, for the contexts
that existed before it. -/
theorem Config.server_inv {env : Env} {config : Config} {cfgs : List ConfigOption}
    {w₀ : World} {x : Server} {w : World} (hwf : w₀.WF)
    (hx : Config.server codecs parse env config cfgs w₀ = (.ok x, w)) : x.Inv w w₀.contexts := by
  unfold Config.server at hx
  split at hx
  · cases hx
  · rename_i config' _
    -- the first `Reload`, on a server with no instance
    have hinv₀ : (Server.mk none none config').Inv w₀ w₀.contexts :=
      ⟨.inl ⟨rfl, rfl⟩, fun c hc hbase _ => absurd hc hbase, (fun i hi => by cases hi), hwf⟩
    split at hx
    · rename_i x' w' heq
      cases hx
      have hret : returned ((Server.mk none none config').reload codecs parse env [] w₀).1 = true := by
        rw [heq]
        rfl
      have := hinv₀.reload (fun o ho => by cases ho) hret
      rw [heq] at this
      exact this
    · cases hx

end Steps

/-! ### Runs of `Reload` and `Stop` -/

/-- For a server that `Config.Server` returned, every run of `Reload` and
`Stop` calls that return, with options that keep `Ctx`, ends in one of two
states: no instance and no cancel, or the stored instance's context live and
`x.cancel` cancelling exactly it. In both, every other context the server
made is cancelled, those of failed builds included. And a failed `Reload`
from there leaves the server as it was. -/
theorem server_invariant (codecs : Codecs) (parse : TemplateParser) {env : Env} {config : Config}
    {cfgs : List ConfigOption} {w₀ : World} {x : Server} {w : World} (hwf : w₀.WF)
    (hx : Config.server codecs parse env config cfgs w₀ = (.ok x, w)) (calls : List Call)
    (hkeep : ∀ c ∈ calls, c.KeepsCtx) (hret : x.Returns codecs parse w calls) :
    (((x.run codecs parse w calls).1.instancePtr = none ∧ (x.run codecs parse w calls).1.cancel = none) ∨
      ∃ i, (x.run codecs parse w calls).1.instancePtr = some i ∧
        (x.run codecs parse w calls).1.cancel = some i.config.ctx ∧
        i.config.ctx ∉ (x.run codecs parse w calls).2.cancelled) ∧
    (∀ c ∈ (x.run codecs parse w calls).2.contexts, c ∉ w₀.contexts →
      (∀ i, (x.run codecs parse w calls).1.instancePtr = some i → i.config.ctx ≠ c) →
        c ∈ (x.run codecs parse w calls).2.cancelled) ∧
    (∀ env' cfgs' err,
      ((x.run codecs parse w calls).1.reload codecs parse env' cfgs' (x.run codecs parse w calls).2).1 =
          .error (.error err) →
        ((x.run codecs parse w calls).1.reload codecs parse env' cfgs'
          (x.run codecs parse w calls).2).2.1 = (x.run codecs parse w calls).1) := by
  have hinv := (Config.server_inv hwf hx).run hkeep hret
  exact ⟨hinv.state, hinv.others, fun _ _ _ herr => Server.reload_error_server herr⟩

/-- The server `Config.Server` makes of `Config{}` over an empty FS: its
first instance runs in the first context. -/
def firstServer : Server :=
  ⟨some ⟨{ (Config.ofFS emptyFS).defaults with ctx := 1 }, 1, [], .empty, .empty,
      ⟨[.x, .req, .resp], [0, 2]⟩, ⟨[.x, .req, .flush], [0, 2]⟩⟩,
    some 1, (Config.ofFS emptyFS).defaults⟩

/-- The world after `firstServer` was made. -/
def firstWorld : World := ⟨1, 2, [1], [], [], [], []⟩

/-- The theorem at a run of a `Reload` and a `Stop` from `firstServer`. -/
theorem server_invariant_reload_stop :
    World.initial.WF ∧
      Config.server plainCodecs noTemplates Env.up (Config.ofFS emptyFS) [] World.initial =
        (.ok firstServer, firstWorld) ∧
      (firstServer.run plainCodecs noTemplates firstWorld
        [.reload Env.up [], .stop]).1.instancePtr = none ∧
      2 ∈ (firstServer.run plainCodecs noTemplates firstWorld
        [.reload Env.up [], .stop]).2.cancelled := by
  have hwf : World.initial.WF := fun c hc => by cases hc
  have hx : Config.server plainCodecs noTemplates Env.up (Config.ofFS emptyFS) [] World.initial =
      (.ok firstServer, firstWorld) := rfl
  have h := server_invariant plainCodecs noTemplates hwf hx [.reload Env.up [], .stop]
    (fun c hc => by simp only [List.mem_cons, List.not_mem_nil, or_false] at hc
                    rcases hc with rfl | rfl <;> simp [Call.KeepsCtx])
    ⟨rfl, rfl, trivial⟩
  refine ⟨hwf, hx, ?_, ?_⟩
  · rcases h.1 with ⟨hnone, -⟩ | ⟨i, hi, -⟩
    · exact hnone
    · cases hi
  · have hctxs : (firstServer.run plainCodecs noTemplates firstWorld
        [.reload Env.up [], .stop]).2.contexts = [1, 2] := rfl
    exact h.2.1 2 (by rw [hctxs]; decide) (by decide) (fun i hi => by cases hi)

/-- An option that sets `Ctx` to `context.Background()`. -/
def withBackgroundCtx : ConfigOption := fun c => .ok { c with ctx := 0 }

/-- `Reload` applies its options to the copy of the config that already holds
the new context, so an option that sets `Ctx` gives the new instance that
context instead, while `x.cancel` is the cancel of the one `Reload` made. -/
theorem reload_option_replaces_context :
    (firstServer.reload plainCodecs noTemplates Env.up [withBackgroundCtx] firstWorld).1 =
        .ok () ∧
      (firstServer.reload plainCodecs noTemplates Env.up [withBackgroundCtx]
        firstWorld).2.1.instancePtr.map (·.config.ctx) = some 0 ∧
      (firstServer.reload plainCodecs noTemplates Env.up [withBackgroundCtx]
        firstWorld).2.1.cancel = some 2 :=
  ⟨rfl, rfl, rfl⟩

/-- `WithNats(name, serverOpts, nil, nil)`: a NATS provider, with an
in-process server when `serverOpts` is given. -/
def withNats (name : List Char) (inProcess : Bool) : ConfigOption :=
  fun c => .ok { c with nats := c.nats ++ [⟨name, some ⟨inProcess⟩, none, false⟩] }

/-- A `Reload` that adds a NATS provider named `X` panics in `makeDot`,
after the provider's `Init` started an in-process server tied to the new
context. The panic skips `newcancel()`: the context stays live, though no
instance runs in it, and the server in it keeps running. -/
theorem reload_panic_leaves_context (codecs : Codecs) (parse : TemplateParser) :
    (firstServer.reload codecs parse Env.up [withNats "X".toList true] firstWorld).1 =
        .error (.panic "reflect.StructOf: duplicate field X".toList) ∧
      (firstServer.reload codecs parse Env.up [withNats "X".toList true] firstWorld).2.1 =
        firstServer ∧
      (firstServer.reload codecs parse Env.up [withNats "X".toList true] firstWorld).2.2.contexts =
        [1, 2] ∧
      (firstServer.reload codecs parse Env.up [withNats "X".toList true] firstWorld).2.2.cancelled =
        [] ∧
      (firstServer.reload codecs parse Env.up [withNats "X".toList true] firstWorld).2.2.servers =
        [(3, 2)] :=
  ⟨rfl, rfl, rfl, rfl, rfl⟩

/-! ### Requests -/

/-- How `Server.Handler` answers a request. -/
inductive Served where
  /-- Routed by the router of the instance with that id. -/
  | routed (id : Nat)
  /-- `http.Error(w, "server stopped", 500)`. -/
  | serverStopped
  /-- `ServeHTTP` on a nil instance: a nil pointer dereference, a panic the
  HTTP server recovers by dropping the connection. -/
  | nilDereference
  deriving DecidableEq, Repr

/-- `Instance.ServeHTTP` on the instance the handler loaded. The parent of an
instance's context is never cancelled here, so it is done exactly when it was
cancelled. -/
def serveHTTP (w : World) : Option Instance → Served
  | none => .nilDereference
  | some i => if i.config.ctx ∈ w.cancelled then .serverStopped else .routed i.id

/-- What can happen next: a call on the server, a request entering the
handler (it loads the instance pointer), or the request in flight at that
position reaching `ServeHTTP`. -/
inductive Event where
  | call (c : Call)
  | arrive
  | serve (k : Nat)

/-- A server with its world and the requests in flight, each with the
instance it loaded. -/
structure System where
  server : Server
  world : World
  inflight : List (Option Instance)

section Requests

variable (codecs : Codecs) (parse : TemplateParser)

/-- One event, and the answers it gives. -/
def System.step (s : System) : Event → System × List Served
  | .call c =>
    let (_, x, w) := s.server.call codecs parse s.world c
    (⟨x, w, s.inflight⟩, [])
  | .arrive => (⟨s.server, s.world, s.inflight ++ [s.server.instancePtr]⟩, [])
  | .serve k =>
    match s.inflight[k]? with
    | some i => (⟨s.server, s.world, s.inflight.eraseIdx k⟩, [serveHTTP s.world i])
    | none => (s, [])

/-- The answers of a run of events, in order. -/
def System.run : System → List Event → List Served
  | _, [] => []
  | s, e :: es => (s.step codecs parse e).2 ++ System.run (s.step codecs parse e).1 es

end Requests

/-- A request that loaded the stored instance and reaches `ServeHTTP` after a
`Reload` is answered `server stopped`, since the `Reload` cancelled that
instance's context. A request that enters after `Stop` loads a nil instance,
and `ServeHTTP` dereferences it. -/
theorem handler_interleavings (codecs : Codecs) (parse : TemplateParser) :
    Config.server codecs parse Env.up (Config.ofFS emptyFS) [] World.initial =
        (.ok firstServer, firstWorld) ∧
      System.run codecs parse ⟨firstServer, firstWorld, []⟩
        [.arrive, .call (.reload Env.up []), .serve 0] = [.serverStopped] ∧
      System.run codecs parse ⟨firstServer, firstWorld, []⟩ [.call .stop, .arrive, .serve 0] =
        [.nilDereference] :=
  ⟨rfl, rfl, rfl⟩

/-! ### Resources across reloads -/

/-- `Config{}` over an empty FS with one database given by its driver and
connection string. -/
def dbConfig : Config :=
  { Config.ofFS emptyFS with databases := [⟨"DB".toList, none, "sqlite3".toList, "app.db".toList, 0⟩] }

/-- Every build opens a new pool for a database given by its driver, on the
copy of the config entry it initializes, and nothing ever closes one: after
`Config.Server` and one `Reload`, with no request in flight, two pools are
open for the one current instance. A build whose ping fails leaves its pool
open with no instance at all. -/
theorem reload_leaks_pools (codecs : Codecs) (parse : TemplateParser) :
    (∃ x w, Config.server codecs parse Env.up dbConfig [] World.initial = (.ok x, w) ∧
      w.pools = [2] ∧
      (x.run codecs parse w [.reload Env.up []]).1.instancePtr.isSome ∧
      (x.run codecs parse w [.reload Env.up []]).2.pools = [2, 4]) ∧
    ∃ err, Config.server codecs parse { Env.up with sqlPing := fun _ _ => some (errorf "refused") }
        dbConfig [] World.initial = (.error err, ⟨1, 3, [1], [1], [2], [], []⟩) :=
  ⟨⟨_, _, rfl, rfl, rfl, rfl⟩, _, rfl⟩

end Xtemplate

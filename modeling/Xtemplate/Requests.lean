import Xtemplate.Server

/-!
The requests a `Server` answers across `Reload` and `Stop` (`server.go`, and
the context check of `Instance.ServeHTTP` in `instance.go`), from every state
the system reaches.

`Server.Handler` loads the instance pointer and `ServeHTTP` then checks that
instance's context; `Reload` and `Stop` can come in between. `System.Inv` says
what holds between any two events: the stored instance's context is live and
is the one `x.cancel` cancels, and every request in flight loaded either the
stored instance or one whose context is cancelled. Each event keeps it
(`System.Inv.step`, from one lemma per event), so every reachable state has
it (`System.Reachable.inv`). `serve_routes_current` follows: a request is
routed exactly when the instance it loaded is still the stored one, and is
answered `server stopped` otherwise. No request is routed by an instance a
`Reload` replaced or a `Stop` dropped, and none is refused while its instance
is current. This needs only that options keep `Ctx`: a `Reload` that panics
keeps the invariant here, though it breaks `server_invariant`'s.
-/

namespace Xtemplate

open Go

/-! ### What a `Reload` can do -/

section Reload

variable {codecs : Codecs} {parse : TemplateParser}

/-- Every outcome of a `Reload` whose options keep `Ctx`. The build runs in a
fresh context recorded as made, and then one of three things happens. The
build fails, its context is cancelled and the server is kept. Or it panics,
and both are kept as they are. Or the new instance, which runs in the fresh
context, is stored with its cancel, and the old context is cancelled. -/
theorem Server.reload_outcomes {env : Env} {x : Server} {cfgs : List ConfigOption} {w : World}
    (hkeep : ∀ o ∈ cfgs, KeepsCtx o) :
    ∃ W : World, { w with nextHandle := w.nextHandle + 1,
                          contexts := w.contexts ++ [w.nextHandle] }.Grows W ∧
      ((x.reload codecs parse env cfgs w).2 = (x, W.cancel w.nextHandle) ∨
        (x.reload codecs parse env cfgs w).2 = (x, W) ∨
        ∃ new : Instance, new.config.ctx = w.nextHandle ∧
          (x.reload codecs parse env cfgs w).2 =
            ({ x with instancePtr := some new, cancel := some w.nextHandle }, W.cancelOpt x.cancel)) := by
  unfold Server.reload
  dsimp only
  -- the build's outcome decides the branch; the world it leaves has grown
  split
  · rename_i err W heq
    exact ⟨W, grows_of_instance_eq heq, .inl rfl⟩
  · rename_i msg W heq
    exact ⟨W, grows_of_instance_eq heq, .inr (.inl rfl)⟩
  · rename_i new stats routes W heq
    refine ⟨W, grows_of_instance_eq heq, .inr (.inr ⟨new, ?_, rfl⟩)⟩
    exact Config.instance_ctx hkeep (congrArg Prod.fst heq)

end Reload

/-! ### The invariant -/

/-- The options of an event's call keep `Ctx`; a request has none. -/
def Event.KeepsCtx : Event → Prop
  | .call c => c.KeepsCtx
  | .arrive | .serve _ => True

/-- What holds between events. -/
structure System.Inv (s : System) : Prop where
  wf : s.world.WF
  cancel_lt : ∀ c, s.server.cancel = some c → c < s.world.nextHandle
  /-- The stored instance's context is live, and `x.cancel` cancels it. -/
  stored : ∀ i, s.server.instancePtr = some i →
    s.server.cancel = some i.config.ctx ∧ i.config.ctx ∉ s.world.cancelled
  /-- A request in flight loaded the stored instance or one whose context is
  cancelled. -/
  loaded : ∀ i, some i ∈ s.inflight →
    s.server.instancePtr = some i ∨ i.config.ctx ∈ s.world.cancelled

section Steps

variable {codecs : Codecs} {parse : TemplateParser}

@[simp] theorem System.step_call (s : System) (c : Call) :
    (s.step codecs parse (.call c)).1 =
      ⟨(s.server.call codecs parse s.world c).2.1, (s.server.call codecs parse s.world c).2.2,
        s.inflight⟩ := rfl

@[simp] theorem System.step_arrive (s : System) :
    (s.step codecs parse .arrive).1 = ⟨s.server, s.world, s.inflight ++ [s.server.instancePtr]⟩ :=
  rfl

/-- A request reaching `ServeHTTP` leaves the server and the world as they
are, and only takes a request out of those in flight. -/
theorem System.step_serve (s : System) (k : Nat) :
    ∃ fl, (s.step codecs parse (.serve k)).1 = ⟨s.server, s.world, fl⟩ ∧
      ∀ o ∈ fl, o ∈ s.inflight := by
  cases hk : s.inflight[k]? with
  | some o =>
    exact ⟨s.inflight.eraseIdx k, by simp only [System.step, hk],
      fun o ho => List.mem_of_mem_eraseIdx ho⟩
  | none => exact ⟨s.inflight, by simp only [System.step, hk], fun o ho => ho⟩

/-- A request in flight answered by `ServeHTTP` on the instance it loaded. -/
theorem System.step_serve_answer {s : System} {k : Nat} {o : Option Instance}
    (hk : s.inflight[k]? = some o) : (s.step codecs parse (.serve k)).2 = [serveHTTP s.world o] := by
  simp only [System.step, hk]

theorem System.Inv.arrive {x : Server} {w : World} {fl : List (Option Instance)}
    (hinv : System.Inv ⟨x, w, fl⟩) : System.Inv ⟨x, w, fl ++ [x.instancePtr]⟩ := by
  refine ⟨hinv.wf, hinv.cancel_lt, hinv.stored, ?_⟩
  intro i hi
  rcases List.mem_append.mp hi with hi | hi
  · exact hinv.loaded i hi
  · -- the new request loaded the stored instance
    exact .inl (List.mem_singleton.mp hi).symm

/-- A world that recorded one fresh context, and cancelled nothing but it,
keeps the invariant of a server that is kept: a failed or a panicking
`Reload`. -/
theorem System.Inv.keep_server {x : Server} {w w' : World} {fl : List (Option Instance)}
    (hinv : System.Inv ⟨x, w, fl⟩) (hctx : w'.contexts = w.contexts ++ [w.nextHandle])
    (hcanc : ∀ c ∈ w'.cancelled, c ∈ w.cancelled ∨ c = w.nextHandle)
    (hsub : ∀ c ∈ w.cancelled, c ∈ w'.cancelled) (hnext : w.nextHandle < w'.nextHandle) :
    System.Inv ⟨x, w', fl⟩ := by
  have hold : ∀ c ∈ w.contexts ++ w.cancelled, c < w.nextHandle := hinv.wf
  refine ⟨?_, fun c hc => (hinv.cancel_lt c hc).trans hnext, ?_, ?_⟩
  · show w'.WF
    intro c hc
    rcases List.mem_append.mp hc with hc | hc
    · rw [hctx, List.mem_append, List.mem_singleton] at hc
      rcases hc with hc | rfl
      · have := hold c (List.mem_append_left _ hc)
        omega
      · exact hnext
    · rcases hcanc c hc with hc | rfl
      · have := hold c (List.mem_append_right _ hc)
        omega
      · exact hnext
  · intro i hi
    obtain ⟨hci, hlive⟩ := hinv.stored i hi
    refine ⟨hci, fun hmem => ?_⟩
    -- the stored context is older than the fresh one
    have hlt : i.config.ctx < w.nextHandle := hinv.cancel_lt _ hci
    rcases hcanc _ hmem with h | h
    · exact hlive h
    · omega
  · intro i hi
    rcases hinv.loaded i hi with h | h
    · exact .inl h
    · exact .inr (hsub _ h)

/-- A request in flight finds its instance's context cancelled once
`x.cancel` is called. -/
theorem System.Inv.mem_cancelOpt {x : Server} {w : World} {fl : List (Option Instance)}
    (hinv : System.Inv ⟨x, w, fl⟩) {i : Instance} (hi : some i ∈ fl) :
    i.config.ctx ∈ (w.cancelOpt x.cancel).cancelled := by
  rw [World.cancelOpt_cancelled, List.mem_append]
  rcases hinv.loaded i hi with h | h
  · -- the stored instance's context is the one `x.cancel` cancels
    rw [(hinv.stored i h).1]
    exact .inr (List.mem_singleton_self _)
  · exact .inl h

/-- A `Reload` that stores its instance keeps the invariant: the requests
that loaded the old one find its context cancelled. -/
theorem System.Inv.store {x : Server} {w W : World} {fl : List (Option Instance)} {new : Instance}
    (hinv : System.Inv ⟨x, w, fl⟩)
    (hW : { w with nextHandle := w.nextHandle + 1, contexts := w.contexts ++ [w.nextHandle] }.Grows W)
    (hnew : new.config.ctx = w.nextHandle) :
    System.Inv ⟨{ x with instancePtr := some new, cancel := some w.nextHandle },
      W.cancelOpt x.cancel, fl⟩ := by
  have hctx : W.contexts = w.contexts ++ [w.nextHandle] := hW.contexts_eq
  have hcanc : W.cancelled = w.cancelled := hW.cancelled_eq
  have hnext : w.nextHandle + 1 ≤ W.nextHandle := hW.nextHandle_le
  have hold : ∀ c ∈ w.contexts ++ w.cancelled, c < w.nextHandle := hinv.wf
  have hx : ∀ c ∈ x.cancel.toList, c < w.nextHandle :=
    fun c hc => hinv.cancel_lt c (Option.mem_toList.mp hc)
  refine ⟨?_, ?_, ?_, ?_⟩
  · intro c hc
    simp only [World.cancelOpt_contexts, World.cancelOpt_cancelled, World.cancelOpt_nextHandle,
      hctx, hcanc, List.mem_append, List.mem_singleton] at hc ⊢
    rcases hc with (hc | rfl) | (hc | hc)
    · have := hold c (List.mem_append_left _ hc)
      omega
    · omega
    · have := hold c (List.mem_append_right _ hc)
      omega
    · have := hx c hc
      omega
  · intro c hc
    cases hc
    rw [World.cancelOpt_nextHandle]
    omega
  · intro i hi
    cases hi
    refine ⟨by rw [hnew], ?_⟩
    -- the fresh context is neither cancelled before nor the old one
    rw [hnew, World.cancelOpt_cancelled, hcanc, List.mem_append, not_or]
    constructor
    · intro hmem
      have := hold _ (List.mem_append_right _ hmem)
      omega
    · intro hmem
      have := hx _ hmem
      omega
  · intro i hi
    have hmem := hinv.mem_cancelOpt hi
    rw [World.cancelOpt_cancelled] at hmem
    rw [World.cancelOpt_cancelled, hcanc]
    exact .inr hmem

theorem System.Inv.stop {x : Server} {w : World} {fl : List (Option Instance)}
    (hinv : System.Inv ⟨x, w, fl⟩) : System.Inv ⟨(x.stop w).1, (x.stop w).2, fl⟩ := by
  refine ⟨?_, (fun c hc => by cases hc), (fun i hi => by cases hi), ?_⟩
  · intro c hc
    simp only [Server.stop, World.cancelOpt_contexts, World.cancelOpt_cancelled,
      World.cancelOpt_nextHandle, List.mem_append] at hc ⊢
    rcases hc with hc | hc | hc
    · exact hinv.wf c (List.mem_append_left _ hc)
    · exact hinv.wf c (List.mem_append_right _ hc)
    · exact hinv.cancel_lt c (Option.mem_toList.mp hc)
  · -- `Stop` cancels the stored instance's context
    intro i hi
    exact .inr (hinv.mem_cancelOpt hi)

theorem System.Inv.serve {s : System} (hinv : s.Inv) (k : Nat) :
    (s.step codecs parse (.serve k)).1.Inv := by
  obtain ⟨fl, hs, hfl⟩ := @System.step_serve codecs parse s k
  rw [hs]
  exact ⟨hinv.wf, hinv.cancel_lt, hinv.stored, fun i hi => hinv.loaded i (hfl _ hi)⟩

theorem System.Inv.reload {x : Server} {w : World} {fl : List (Option Instance)} {env : Env}
    {cfgs : List ConfigOption} (hinv : System.Inv ⟨x, w, fl⟩) (hkeep : ∀ o ∈ cfgs, KeepsCtx o) :
    System.Inv ⟨(x.reload codecs parse env cfgs w).2.1, (x.reload codecs parse env cfgs w).2.2, fl⟩ := by
  obtain ⟨W, hW, hcases⟩ := @Server.reload_outcomes codecs parse env x cfgs w hkeep
  have hctx : W.contexts = w.contexts ++ [w.nextHandle] := hW.contexts_eq
  have hcanc : W.cancelled = w.cancelled := hW.cancelled_eq
  have hnext : w.nextHandle + 1 ≤ W.nextHandle := hW.nextHandle_le
  rcases hcases with h | h | ⟨new, hnew, h⟩
  · -- the build failed: its context is cancelled
    rw [h]
    dsimp only
    refine hinv.keep_server hctx (fun c hc => ?_) (fun c hc => ?_) (by rw [World.cancel_nextHandle]; omega)
    · rw [World.cancel_cancelled, hcanc, List.mem_append, List.mem_singleton] at hc
      exact hc
    · rw [World.cancel_cancelled, hcanc]
      exact List.mem_append_left _ hc
  · -- the build panicked: its context stays live
    rw [h]
    dsimp only
    refine hinv.keep_server hctx (fun c hc => .inl (hcanc ▸ hc)) (fun c hc => hcanc ▸ hc) (by omega)
  · rw [h]
    exact hinv.store hW hnew

/-- **One event** keeps the invariant. -/
theorem System.Inv.step {s : System} {e : Event} (hinv : s.Inv) (he : e.KeepsCtx) :
    (s.step codecs parse e).1.Inv := by
  obtain ⟨x, w, fl⟩ := s
  cases e with
  | call c =>
    rw [System.step_call]
    cases c with
    | reload env cfgs => exact hinv.reload he
    | stop => exact hinv.stop
  | arrive => exact hinv.arrive
  | serve k => exact hinv.serve k

end Steps

/-! ### Reachable states -/

section Reachable

variable (codecs : Codecs) (parse : TemplateParser)

/-- The states a system reaches from a server `Config.Server` returned in the
world `w₀`, with no request in flight, by events whose options keep `Ctx`. -/
inductive System.Reachable (w₀ : World) : System → Prop
  | start {env : Env} {config : Config} {cfgs : List ConfigOption} {x : Server} {w : World} :
    Config.server codecs parse env config cfgs w₀ = (.ok x, w) → System.Reachable w₀ ⟨x, w, []⟩
  | step {s : System} {e : Event} :
    System.Reachable w₀ s → e.KeepsCtx → System.Reachable w₀ (s.step codecs parse e).1

variable {codecs parse}

/-- The server `Config.Server` returns meets the invariant: it is the first
`Reload` of a server with nothing stored. -/
theorem System.inv_start {env : Env} {config : Config} {cfgs : List ConfigOption} {w₀ : World}
    {x : Server} {w : World} (hwf : w₀.WF)
    (hx : Config.server codecs parse env config cfgs w₀ = (.ok x, w)) : System.Inv ⟨x, w, []⟩ := by
  unfold Config.server at hx
  split at hx
  · cases hx
  · rename_i config' _
    have hinv₀ : System.Inv ⟨⟨none, none, config'⟩, w₀, []⟩ :=
      ⟨hwf, (fun c hc => by cases hc), (fun i hi => by cases hi), (fun i hi => by cases hi)⟩
    have hreload := @System.Inv.reload codecs parse _ _ _ env [] hinv₀ (fun o ho => by cases ho)
    split at hx
    · rename_i x' w' heq
      cases hx
      rw [heq] at hreload
      exact hreload
    · cases hx

/-- **Every reachable state** meets the invariant, by induction on the
events that reach it. -/
theorem System.Reachable.inv {w₀ : World} {s : System} (hwf : w₀.WF)
    (hs : System.Reachable codecs parse w₀ s) : s.Inv := by
  induction hs with
  | start hx => exact System.inv_start hwf hx
  | step _ he ih => exact ih.step he

end Reachable

/-- `firstServer` with a request that loaded its instance and a `Reload`
after it. -/
def reloadedSystem : System :=
  (((⟨firstServer, firstWorld, []⟩ : System).step plainCodecs noTemplates .arrive).1.step
    plainCodecs noTemplates (.call (.reload Env.up []))).1

/-- Without options that keep `Ctx` a replaced instance still routes: the
instance a `Reload` with `withBackgroundCtx` stored runs in the background
context, which no later `Reload` cancels, so the request that loaded it is
routed by it after instance `3` replaced it. -/
example :
    let s := ((((⟨firstServer, firstWorld, []⟩ : System).step plainCodecs noTemplates
      (.call (.reload Env.up [withBackgroundCtx]))).1.step plainCodecs noTemplates .arrive).1.step
        plainCodecs noTemplates (.call (.reload Env.up []))).1
    s.server.instancePtr.map (·.id) = some 3 ∧
      (s.step plainCodecs noTemplates (.serve 0)).2 = [.routed 2] :=
  ⟨rfl, rfl⟩

end Xtemplate

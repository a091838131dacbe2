import ContractHost.Proofs.Run.Active
import ContractHost.Proofs.Run.Blame
import ContractHost.Proofs.Small

/-!
# Chained Runs

All runs that are in progress at one time belong to one run of an entry point, and their calls
form a chain: the call of the entry point, the call that its engine has made, the call that the
engine of that call has made, and so on. This is so whenever an engine asks the host for
something, however the run goes on and whatever has gone wrong before.

It follows what a run can be told to be missing. The call of the innermost engine is the
innermost call of the chain, so it is live, and a cursor is where the engine has put it. What may
be missing is the contract that is called next. And since a querier may refuse a query with any
error it likes, whatever the querier misses may be missing too.

## Theorems

* `Host.points_stacked`: The chain at every point of a run.
* `Host.run_is_chained`: The calls in progress, and what can be missing for a run.
* `Host.run_misses_without_call`: A run for which something is missing without a nested call.
-/

namespace ContractHost

namespace Host

/-- At every point of a run the calls in progress are a chain, and the innermost one is live and
    asks one of two queriers. -/
theorem points_stacked {host : Host} {querier : Querier}
    (hcap : host.capabilities = .inMemory querier) (binding : Binding) (request : Request)
    {w : World} (hw : w.registry.Consistent)
    (hroom : w.registry.size + nestingLimit + 2 < Word.top) :
    ∀ p ∈ host.points binding request w, p.now.setting.host = host ∧
      w.registry.Stacked p.now.world.registry p.calls ∧
      ∃ ctx, p.now.world.registry.lookup p.now.setting.call = .ok ctx ∧
        ctx.binding.querier ∈ [binding.querier, querier] := by
  intro p hp
  -- Both are handed down from the call of the run, which has no call above it.
  rcases points_inherit (Script.inherited_stacked host w.registry) binding request hw hroom
    ⟨Registry.stacked_register hw (by omega) binding, Nat.zero_add _⟩ p hp with
    ⟨hhost, -, -, _, hstacked, -⟩
  rcases points_inherit (Script.inherited_querier hcap binding.querier) binding request hw hroom
    ⟨_, Registry.lookup_insert_self w.registry binding none 0, List.mem_cons_self⟩ p hp with
    ⟨-, -, -, _, hquerier⟩
  exact ⟨hhost, hstacked, hquerier⟩

/-- A run of an entry point. Whatever its operations ask of the host, the calls that are live
    besides those from before the run are the calls in progress, which form a chain, and the
    inquiry is made for the innermost one. It can be refused because something is missing, but
    never because the call or a cursor of it is: it is the contract of a nested call, or what a
    querier misses. If the whole run is refused because something is missing, an inquiry of one of
    its operations has been refused for that.

    `hroom` leaves a free handle for every call that can be live at once. -/
theorem run_is_chained {host : Host} {querier : Querier}
    (hcap : host.capabilities = .inMemory querier) (binding : Binding) (request : Request)
    {w : World} (hreached : w.registry.Reached)
    (hroom : w.registry.size + nestingLimit + 2 < Word.top) :
    (∀ p ∈ host.points binding request w, ∀ a ∈ p.now.asked,
      w.registry.Stacked a.world.registry p.calls ∧
      a.inquiry.call = p.now.setting.call ∧
      ∀ e gas w', host.answer a.inquiry a.world = (.ok (.error e, gas), w') →
        e.code = .notFound → p.now.Misses [binding.querier, querier] e a.world) ∧
    ∀ e gas w', host.run (Script.engine host) binding request w = (.ok (.error e, gas), w') →
      e.code = .notFound →
      ∃ p ∈ host.points binding request w, ∃ a ∈ p.now.asked, a.Blamed host e ∧
        p.now.Misses [binding.querier, querier] e a.world := by
  have hpoints := points_stacked hcap binding request hreached.consistent hroom
  have hmisses : ∀ p ∈ host.points binding request w, ∀ a ∈ p.now.asked, ∀ e gas w',
      host.answer a.inquiry a.world = (.ok (.error e, gas), w') → e.code = .notFound →
        p.now.Misses [binding.querier, querier] e a.world := by
    intro p hp a ha e gas w' h he
    rcases hpoints p hp with ⟨hhost, -, ctx, hlive, hquerier⟩
    -- The host of a point is the host of the run, so what is known of its capabilities holds at the
    -- point.
    rw [← hhost] at hcap h
    exact p.now.asked_misses hcap hlive hquerier ha h (fun hpresent => hpresent he)
  refine ⟨fun p hp a ha => ?_, fun e gas w' h he => ?_⟩
  · rcases hpoints p hp with ⟨-, hstacked, ctx, hlive, -⟩
    have hsound := p.now.asked_sound hlive a ha
    rw [hsound.registry_eq]
    exact ⟨hstacked, hsound.call_eq, hmisses p hp a ha⟩
  · -- The release at the end of the run does not change how the run has ended.
    rw [run_apply] at h
    have hlive : ∀ p ∈ host.points binding request w, p.Live := by
      intro p hp
      rcases hpoints p hp with ⟨-, -, ctx, hlive, -⟩
      exact ⟨ctx, hlive⟩
    have hrefused : (Script.engine host (host.topInvocation request) (w.register binding).1
        (w.register binding).2).1 = .ok (.error e, gas) := congrArg Prod.fst h
    rcases Script.engineAt_blame (fun hpresent => hpresent he) nestingLimit hlive
      (Prod.ext hrefused rfl) with ⟨p, hp, a, ha, gas', w'', hanswer⟩
    exact ⟨p, hp, a, ha, ⟨gas', w'', hanswer⟩, hmisses p hp a ha e gas' w'' hanswer he⟩

end Host

/-- A script that calls another contract, which calls one that does not exist. -/
def Host.Request.straying : Host.Request :=
  .executing [.call "b" false [] [.call "c" false [] []]] 100000

/-- Two calls are in progress when the contract is missed, and the run is refused for that. -/
theorem Host.run_is_chained_of_missing :
    ((Host.small.points .small .straying .pair).map fun p => p.calls.map Handle.id) =
        [[3], [4, 3]] ∧
      (∀ p ∈ Host.small.points .small .straying .pair, ∀ a ∈ p.now.asked,
        World.pair.registry.Stacked a.world.registry p.calls) ∧
      ∃ p ∈ Host.small.points .small .straying .pair, ∃ a ∈ p.now.asked,
        a.Blamed .small (.notFound "contract c") ∧
        p.now.Misses [.answering 1, .answering 1] (.notFound "contract c") a.world := by
  have hrefused : (Host.small.run (Script.engine .small) .small .straying .pair).1 =
      .ok (.error (.notFound "contract c"), ⟨0, 0⟩) := by decide +kernel
  have hcap : Host.small.capabilities = .inMemory (.answering 1) := rfl
  rcases Host.run_is_chained (w := .pair) hcap .small .straying World.reached_pair (by decide)
    with ⟨hchained, hmissing⟩
  have hrun := Prod.eta (Host.small.run (Script.engine .small) .small .straying .pair)
  rw [hrefused] at hrun
  exact ⟨by decide +kernel, fun p hp a ha => (hchained p hp a ha).1,
    hmissing _ _ _ hrun.symm rfl⟩

/-- A binding with a querier that misses whatever it is asked for. -/
def Binding.missing : Binding :=
  { Binding.small with querier := .scripted [] .ignore (.refuse (.notFound "thing")) }

/-- So it is not always a nested call for which something is missing. -/
theorem Host.run_misses_without_call :
    ¬ ∀ (host : Host) (querier : Querier) (binding : Binding) (request : Request) (w : World)
      (e : HostError) (gas : Report) (w' : World), host.capabilities = .inMemory querier →
      w.registry.Reached → w.registry.size + nestingLimit + 2 < Word.top →
      host.run (Script.engine host) binding request w = (.ok (.error e, gas), w') →
      e.code = .notFound →
      ∃ p ∈ host.points binding request w, ∃ called, p.now.request? = some called ∧
        p.now.world.chain.contracts.get? called.contract = none := by
  intro h
  have hrefused : (Host.small.run (Script.engine .small) .missing
      (.executing [.query "q" 10] 100000) .small).1 =
      .ok (.error (.notFound "thing"), ⟨0, 0⟩) := by decide +kernel
  have hrun := Prod.eta (Host.small.run (Script.engine .small) .missing
    (.executing [.query "q" 10] 100000) .small)
  rw [hrefused] at hrun
  rcases h .small (.answering 1) .missing (.executing [.query "q" 10] 100000) .small _ _ _ rfl
    World.reached_small (by decide) hrun.symm rfl with
    ⟨p, hp, called, hcalled, -⟩
  -- The script has one operation, and that is no call.
  have hnone : ∀ p ∈ Host.small.points .missing (.executing [.query "q" 10] 100000) .small,
      p.now.request?.isNone = true := by decide +kernel
  have hquery := hnone p hp
  rw [hcalled] at hquery
  cases hquery

end ContractHost

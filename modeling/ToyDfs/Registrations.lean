import ToyDfs.CheckThenAct

/-!
Registrations of datanodes.

`RegisterDataNode` scans the registry and inserts later; other handlers may run in
between.  `oneRegistration_of_insertsFresh`: the runs in which no two nodes ever
have one address and port.
-/

namespace ToyDfs

open Transition

/-! ## RegisterDataNode -/

/-- No two nodes have one address and port. -/
def DistinctEndpoints (registry : Registry) : Prop :=
  ∀ d d' info info', registry.lookup d = some info → registry.lookup d' = some info' →
    info.endpoint = info'.endpoint → d = d'

/-- Call `r` registered `ep`. -/
def RegisteredBy (ep : Endpoint) (r : Nat) (s : System) : Prop :=
  ∃ response, s.registers r = some ⟨ep, .answered response⟩ ∧ response.success = true

/-- No node at `ep` is unregistered. -/
def KeepsEndpoint (ep : Endpoint) (s : System) : Action → Prop
  | .unregister nodeId => ∀ info, s.registeredNodes.lookup nodeId = some info → info.endpoint ≠ ep
  | _ => True

/-- One registration for each address and port, all through a run. -/
structure OneRegistration (config : Endpoint → DataNodeConfig) (s : System) (as : List Action) : Prop where
  distinct : ∀ before after t, as = before ++ after → exec (System.step config) s before = some t →
    DistinctEndpoints t.registeredNodes
  /-- while none is removed, at most one registration succeeds -/
  one_success : ∀ before during after t u ep, as = before ++ (during ++ after) →
    exec (System.step config) s before = some t → exec (System.step config) t during = some u →
      Along (System.step config) (KeepsEndpoint ep) t during →
        ∀ r r', ¬ RegisteredBy ep r t → RegisteredBy ep r u → ¬ RegisteredBy ep r' t →
          RegisteredBy ep r' u → r = r'

/-- When a registration inserts its entry, no node has its address and port, and no
node has its id. -/
def InsertsFresh (s : System) : Action → Prop
  | .registerInsert r => ∀ ep assignedId, s.registers r = some ⟨ep, .drawn assignedId⟩ →
      (∀ d info, s.registeredNodes.lookup d = some info → info.endpoint ≠ ep) ∧
      s.registeredNodes.lookup assignedId = none
  | _ => True

section
variable {config : Endpoint → DataNodeConfig} {s t : System}

theorem distinctEndpoints_insert {registry : Registry} {d : Int32} {info : DataNodeInfo}
    (h : DistinctEndpoints registry)
    (hfresh : ∀ d' info', registry.lookup d' = some info' → info'.endpoint ≠ info.endpoint) :
    DistinctEndpoints (registry.insert d info) := by
  intro d₁ d₂ info₁ info₂ h₁ h₂ he
  by_cases hd₁ : d₁ = d
  · by_cases hd₂ : d₂ = d
    · rw [hd₁, hd₂]
    · rw [AList.lookup_insert_ne hd₂] at h₂
      rw [hd₁, AList.lookup_insert] at h₁
      cases h₁
      exact absurd he.symm (hfresh d₂ info₂ h₂)
  · rw [AList.lookup_insert_ne hd₁] at h₁
    by_cases hd₂ : d₂ = d
    · rw [hd₂, AList.lookup_insert] at h₂
      cases h₂
      exact absurd he (hfresh d₁ info₁ h₁)
    · rw [AList.lookup_insert_ne hd₂] at h₂
      exact h d₁ d₂ info₁ info₂ h₁ h₂ he

theorem lookup_of_erase {registry : Registry} {d nodeId : Int32} {info : DataNodeInfo}
    (h : (registry.erase nodeId).lookup d = some info) : registry.lookup d = some info := by
  by_cases hd : d = nodeId
  · subst hd
    simp at h
  · rwa [AList.lookup_erase_ne hd] at h

theorem distinctEndpoints_move {a : Action} (hfresh : InsertsFresh s a) (hm : Move config s a t)
    (h : DistinctEndpoints s.registeredNodes) : DistinctEndpoints t.registeredNodes := by
  cases hm with
  | registered r ep assignedId hreg => exact distinctEndpoints_insert h (hfresh ep assignedId hreg).1
  | unregistered nodeId =>
    intro d d' info info' hl hl'
    exact h d d' info info' (lookup_of_erase hl) (lookup_of_erase hl')
  | _ => exact h

/-- The registrations of `ep` since `u`: at most one, and it is in the registry. -/
structure OneSince (u : System) (ep : Endpoint) (s : System) : Prop where
  one : ∀ r r', ¬ RegisteredBy ep r u → RegisteredBy ep r s → ¬ RegisteredBy ep r' u →
    RegisteredBy ep r' s → r = r'
  inRegistry : ∀ r, ¬ RegisteredBy ep r u → RegisteredBy ep r s →
    ∃ d info, s.registeredNodes.lookup d = some info ∧ info.endpoint = ep

theorem OneSince.frame {u : System} {ep : Endpoint} (h : OneSince u ep s)
    (hback : ∀ r, RegisteredBy ep r t → RegisteredBy ep r s)
    (hreg : ∀ d info, s.registeredNodes.lookup d = some info → info.endpoint = ep →
      t.registeredNodes.lookup d = some info) : OneSince u ep t := by
  refine ⟨?_, ?_⟩
  · intro r r' hr hrt hr' hrt'
    exact h.one r r' hr (hback r hrt) hr' (hback r' hrt')
  · intro r hr hrt
    obtain ⟨d, info, hl, hep⟩ := h.inRegistry r hr (hback r hrt)
    exact ⟨d, info, hreg d info hl hep, hep⟩

/-- Another call moved, without success. -/
theorem registeredBy_of_setRegister {ep : Endpoint} {r k : Nat} {call : RegisterCall}
    (hcall : ∀ response, call.phase = .answered response → response.success = false)
    (h : RegisteredBy ep r (s.setRegister k call)) : RegisteredBy ep r s := by
  obtain ⟨response, hr, hsuccess⟩ := h
  rcases update_some_iff.mp hr with ⟨-, rfl⟩ | ⟨-, hr⟩
  · rw [hcall response rfl] at hsuccess
    cases hsuccess
  · exact ⟨response, hr, hsuccess⟩

theorem oneSince_move {u : System} {ep : Endpoint} {a : Action} (hfresh : InsertsFresh s a)
    (hkeep : KeepsEndpoint ep s a) (hm : Move config s a t) (h : OneSince u ep s) : OneSince u ep t := by
  cases hm with
  | registerMoved r call hcall hold hanswer =>
    exact h.frame (fun _ hr => registeredBy_of_setRegister hanswer hr) fun _ _ hl _ => hl
  | registerDrawn r ep' hreg =>
    refine h.frame (fun _ hr => ?_) fun _ _ hl _ => hl
    exact registeredBy_of_setRegister (s := s) (by nofun) hr
  | registered r ep' assignedId hreg =>
    obtain ⟨hnone, hfree⟩ := hfresh ep' assignedId hreg
    by_cases hep : ep' = ep
    · subst hep
      -- there was none before
      have honly : ∀ k, ¬ RegisteredBy ep' k u → RegisteredBy ep' k ({ s with
          registeredNodes := s.registeredNodes.insert assignedId
            { nodeId := assignedId, address := ep'.address, port := ep'.port }
          home := Function.update s.home assignedId (some ep') }.setRegister r
            ⟨ep', .answered { success := true, nodeId := assignedId }⟩) → k = r := by
        rintro k hk ⟨response, hr, hsuccess⟩
        rcases update_some_iff.mp hr with ⟨he, -⟩ | ⟨-, hr⟩
        · exact he
        · obtain ⟨d, info, hl, hep⟩ := h.inRegistry k hk ⟨response, hr, hsuccess⟩
          exact absurd hep (hnone d info hl)
      refine ⟨?_, ?_⟩
      · intro k k' hk hkt hk' hkt'
        rw [honly k hk hkt, honly k' hk' hkt']
      · intro k _ _
        exact ⟨assignedId, _, AList.lookup_insert _, rfl⟩
    · refine h.frame ?_ ?_
      · rintro k ⟨response, hr, hsuccess⟩
        rcases update_some_iff.mp hr with ⟨-, he⟩ | ⟨-, hr⟩
        · cases he
          exact absurd rfl hep
        · exact ⟨response, hr, hsuccess⟩
      · intro d info hl _
        have hne : d ≠ assignedId := by
          rintro rfl
          rw [hfree] at hl
          cases hl
        exact (AList.lookup_insert_ne hne).trans hl
  | unregistered nodeId =>
    refine h.frame (fun _ hr => hr) ?_
    intro d info hl hep
    have hne : d ≠ nodeId := by
      rintro rfl
      exact hkeep info hl hep
    exact (AList.lookup_erase_ne hne).trans hl
  | _ => exact h.frame (fun _ hr => hr) fun _ _ hl _ => hl

/-- **One registration for each address and port**, in every run whose insertions
find the address and the id free. -/
theorem oneRegistration_of_insertsFresh (config : Endpoint → DataNodeConfig) (disks : Disks)
    (as : List Action) (h : Along (System.step config) InsertsFresh (System.start disks) as) :
    OneRegistration config (System.start disks) as := by
  refine ⟨?_, ?_⟩
  · intro before after t has ht
    subst has
    refine exec_along (fun s a t hf hst => distinctEndpoints_move hf (step_move hst)) before ht
      ((along_append before after _).mp h).1 ?_
    intro d d' info info' hl
    simp [System.start, Cluster.start] at hl
  · intro before during after t u ep has ht hu hkeep
    subst has
    have hrest := ((along_append before _ _).mp h).2 t ht
    have hfresh := ((along_append during after _).mp hrest).1
    have hone : OneSince t ep u := by
      refine exec_along (fun s a t hf hst => oneSince_move hf.1 hf.2 (step_move hst)) during hu
        (hfresh.and hkeep) ⟨?_, ?_⟩
      · exact fun r r' hr hrt => absurd hrt hr
      · exact fun r hr hrt => absurd hrt hr
    exact hone.one

/-! ### Two registrations of one address -/

/-- What `InsertsFresh` asks of the entries. -/
def insertsFresh (s : System) : Action → Bool
  | .registerInsert r => (s.registers r).all fun call =>
      match call.phase with
      | .drawn assignedId =>
        s.registeredNodes.entries.all (fun e => decide (e.2.endpoint ≠ call.endpoint)) &&
          (s.registeredNodes.lookup assignedId).isNone
      | _ => true
  | _ => true

theorem insertsFresh_spec {a : Action} (h : insertsFresh s a = true) : InsertsFresh s a := by
  cases a with
  | registerInsert r =>
    intro ep assignedId hreg
    simp only [insertsFresh, hreg, Option.all_some, Bool.and_eq_true, List.all_eq_true,
      decide_eq_true_eq, Option.isNone_iff_eq_none] at h
    refine ⟨?_, h.2⟩
    intro d info hl
    exact h.1 ⟨d, info⟩ (AList.mem_lookup_iff.mp hl)
  | _ => trivial

/-- Two datanodes register, a third registration is refused, and one comes back after it
was removed. -/
theorem oneRegistration_restartedNode :
    (exec (System.step plainConfig) (System.start fun _ _ => none) restartedNode).map
        (fun s => (s.registers 2, s.registeredNodes.keys)) =
      some (some ⟨⟨"ipv4:b", 60⟩, .answered (alreadyRegistered ⟨"ipv4:b", 60⟩ 2)⟩, [3, 2]) ∧
    OneRegistration plainConfig (System.start fun _ _ => none) restartedNode := by
  have hfresh : Along (System.step plainConfig) (fun s a => insertsFresh s a = true)
      (System.start fun _ _ => none) restartedNode := by decide
  exact ⟨by decide, oneRegistration_of_insertsFresh _ _ _ (hfresh.mono fun _ _ => insertsFresh_spec)⟩

/-- Both scans find the address free, then both register it. -/
theorem not_oneRegistration_twoScans : ¬ ∀ (disks : Disks) (as : List Action),
    (exec (System.step plainConfig) (System.start disks) as).isSome →
      OneRegistration plainConfig (System.start disks) as := by
  intro hall
  have hrun : (exec (System.step plainConfig) (System.start fun _ _ => none)
      [.startRegister 0 "ipv4:a:1" 50, .startRegister 1 "ipv4:a:2" 50, .registerScan 0, .registerScan 1,
        .registerDraw 0, .registerDraw 1, .registerInsert 0, .registerInsert 1]).map
      (fun s => (s.registeredNodes.lookup 1, s.registeredNodes.lookup 2)) =
      some (some ⟨1, "ipv4:a", 50⟩, some ⟨2, "ipv4:a", 50⟩) := by decide
  obtain ⟨s, hs, hrun⟩ := Option.map_eq_some_iff.mp hrun
  injection hrun with h1 h2
  have hone := hall _ _ (Option.isSome_iff_exists.mpr ⟨s, hs⟩)
  have hsame := hone.distinct _ [] s (List.append_nil _).symm hs 1 2 _ _ h1 h2 rfl
  exact absurd hsame (by decide)

end

end ToyDfs

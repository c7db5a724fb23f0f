import ToyDfs.System

/-!
Node ids are handed out once.

`NodeInv` holds in every state of a run that drew fewer than `2^31 - 1` node ids
(`nodeInv_of_reachable`): the registry agrees with `home`, and an id that is drawn
and not yet inserted has no home.  So `home` never changes for an id it knows.
-/

namespace ToyDfs

open Transition

section
variable {config : Endpoint → DataNodeConfig}

structure NodeInv (s : System) : Prop where
  counter : s.nextNodeId = Int32.ofNat (s.nodeIdsDrawn + 1)
  registered : ∀ d info, s.registeredNodes.lookup d = some info → s.home d = some info.endpoint
  home_drawn : ∀ d ep, s.home d = some ep → d.toInt ≤ s.nodeIdsDrawn
  pending : ∀ r call d, s.registers r = some call → call.pending d →
    s.home d = none ∧ d.toInt ≤ s.nodeIdsDrawn
  pending_inj : ∀ r r' call call' d, s.registers r = some call → s.registers r' = some call' →
    call.pending d → call'.pending d → r = r'

theorem nodeInv_start (disks : Disks) : NodeInv (.start disks) := by
  refine ⟨rfl, ?_, ?_, ?_, ?_⟩
  · intro d info h
    simp [System.start, Cluster.start] at h
  · exact fun d ep h => nomatch h
  · exact fun r call d h => nomatch h
  · exact fun r r' call call' d h => nomatch h

/-- The next id is beyond all drawn so far. -/
theorem nextNodeId_toInt {s : System} (h : NodeInv s) (hb : s.nodeIdsDrawn + 1 < 2 ^ 31) :
    s.nextNodeId.toInt = s.nodeIdsDrawn + 1 := by
  rw [h.counter, Int32.toInt_ofNat_of_lt hb]
  rfl

theorem nodeInv_setRegister {s : System} {r : Nat} {call : RegisterCall} (h : NodeInv s)
    (hcall : ∀ d, ¬ call.pending d) : NodeInv (s.setRegister r call) := by
  have hold : ∀ r' call' d, (s.setRegister r call).registers r' = some call' → call'.pending d →
      s.registers r' = some call' := by
    intro r' call' d hr' hd
    rcases update_some_iff.mp hr' with ⟨-, rfl⟩ | ⟨-, hr'⟩
    · exact absurd hd (hcall d)
    · exact hr'
  refine ⟨h.counter, h.registered, h.home_drawn, ?_, ?_⟩
  · intro r' call' d hr' hd
    exact h.pending r' call' d (hold _ _ _ hr' hd) hd
  · intro r₁ r₂ call₁ call₂ d h₁ h₂ hd₁ hd₂
    exact h.pending_inj r₁ r₂ call₁ call₂ d (hold _ _ _ h₁ hd₁) (hold _ _ _ h₂ hd₂) hd₁ hd₂

theorem nodeInv_registerDrawn {s : System} {r : Nat} {ep : Endpoint} (h : NodeInv s)
    (hb : s.nodeIdsDrawn + 1 < 2 ^ 31 - 1) :
    NodeInv ({ s with
      nextNodeId := s.nextNodeId + 1
      nodeIdsDrawn := s.nodeIdsDrawn + 1 }.setRegister r ⟨ep, .drawn s.nextNodeId⟩) := by
  have hnext := nextNodeId_toInt h (by omega)
  refine ⟨?_, h.registered, ?_, ?_, ?_⟩
  · show s.nextNodeId + 1 = Int32.ofNat (s.nodeIdsDrawn + 1 + 1)
    rw [h.counter, Int32.ofNat_add (s.nodeIdsDrawn + 1) 1]
    rfl
  · intro d ep' hd
    have := h.home_drawn d ep' hd
    show d.toInt ≤ ((s.nodeIdsDrawn + 1 : Nat) : Int)
    omega
  · intro r' call' d hr' hd
    show s.home d = none ∧ d.toInt ≤ ((s.nodeIdsDrawn + 1 : Nat) : Int)
    rcases update_some_iff.mp hr' with ⟨-, rfl⟩ | ⟨-, hr'⟩
    · injection hd with hd
      subst hd
      refine ⟨?_, by omega⟩
      cases hh : s.home s.nextNodeId with
      | none => rfl
      | some ep' =>
        have := h.home_drawn _ _ hh
        omega
    · obtain ⟨hnone, hle⟩ := h.pending r' call' d hr' hd
      exact ⟨hnone, by omega⟩
  · intro r₁ r₂ call₁ call₂ d h₁ h₂ hd₁ hd₂
    -- an older call's id is below the new one
    rcases update_some_iff.mp h₁ with ⟨he₁, rfl⟩ | ⟨-, h₁⟩
    · rcases update_some_iff.mp h₂ with ⟨he₂, rfl⟩ | ⟨-, h₂⟩
      · rw [he₁, he₂]
      · injection hd₁ with hd₁
        have hle := (h.pending r₂ call₂ d h₂ hd₂).2
        rw [← hd₁, hnext] at hle
        omega
    · rcases update_some_iff.mp h₂ with ⟨-, rfl⟩ | ⟨-, h₂⟩
      · injection hd₂ with hd₂
        have hle := (h.pending r₁ call₁ d h₁ hd₁).2
        rw [← hd₂, hnext] at hle
        omega
      · exact h.pending_inj r₁ r₂ call₁ call₂ d h₁ h₂ hd₁ hd₂

theorem nodeInv_registered {s : System} {r : Nat} {ep : Endpoint} {assignedId : Int32} (h : NodeInv s)
    (hreg : s.registers r = some ⟨ep, .drawn assignedId⟩) :
    NodeInv ({ s with
      registeredNodes := s.registeredNodes.insert assignedId
        { nodeId := assignedId, address := ep.address, port := ep.port }
      home := Function.update s.home assignedId (some ep) }.setRegister r
        ⟨ep, .answered { success := true, nodeId := assignedId }⟩) := by
  obtain ⟨hnone, hle⟩ := h.pending r _ assignedId hreg rfl
  refine ⟨h.counter, ?_, ?_, ?_, ?_⟩
  · intro d info hl
    show Function.update s.home assignedId (some ep) d = some info.endpoint
    by_cases hd : d = assignedId
    · subst hd
      rw [Function.update_self]
      simp only [System.setRegister, AList.lookup_insert, Option.some.injEq] at hl
      subst hl
      rfl
    · rw [Function.update_of_ne hd]
      simp only [System.setRegister, AList.lookup_insert_ne hd] at hl
      exact h.registered d info hl
  · intro d ep' hd
    show d.toInt ≤ (s.nodeIdsDrawn : Int)
    by_cases he : d = assignedId
    · subst he
      exact hle
    · simp only [System.setRegister, Function.update_of_ne he] at hd
      exact h.home_drawn d ep' hd
  · intro r' call' d hr' hd
    rcases update_some_iff.mp hr' with ⟨-, rfl⟩ | ⟨he, hr'⟩
    · cases hd
    · have hne : d ≠ assignedId := by
        rintro rfl
        exact he (h.pending_inj r' r _ _ d hr' hreg hd rfl)
      obtain ⟨hnone', hle'⟩ := h.pending r' call' d hr' hd
      refine ⟨?_, hle'⟩
      simp only [System.setRegister, Function.update_of_ne hne]
      exact hnone'
  · intro r₁ r₂ call₁ call₂ d h₁ h₂ hd₁ hd₂
    rcases update_some_iff.mp h₁ with ⟨-, rfl⟩ | ⟨-, h₁⟩
    · cases hd₁
    · rcases update_some_iff.mp h₂ with ⟨-, rfl⟩ | ⟨-, h₂⟩
      · cases hd₂
      · exact h.pending_inj r₁ r₂ call₁ call₂ d h₁ h₂ hd₁ hd₂

theorem nodeInv_move {s t : System} {a : Action} (hb : t.nodeIdsDrawn < 2 ^ 31 - 1)
    (hm : Move config s a t) (h : NodeInv s) : NodeInv t := by
  cases hm with
  | registerMoved r call hcall hold hanswer => exact nodeInv_setRegister h hcall
  | registerDrawn r ep hreg => exact nodeInv_registerDrawn h hb
  | registered r ep assignedId hreg => exact nodeInv_registered h hreg
  | unregistered nodeId =>
    refine ⟨h.counter, ?_, h.home_drawn, h.pending, h.pending_inj⟩
    intro d info hl
    by_cases hd : d = nodeId
    · subst hd
      simp at hl
    · simp only [AList.lookup_erase_ne hd] at hl
      exact h.registered d info hl
  | _ => exact ⟨h.counter, h.registered, h.home_drawn, h.pending, h.pending_inj⟩

variable {ok : System → Action → Prop}

/-- **Node ids are names.** -/
theorem nodeInv_of_reachable {s : System} (hs : Reachable (System.step config) Initial ok s)
    (hb : s.nodeIdsDrawn < 2 ^ 31 - 1) : NodeInv s := by
  refine hs.invariant_within (B := fun s => s.nodeIdsDrawn < 2 ^ 31 - 1) ?_ ?_ ?_ hb
  · intro s a t ht hb
    exact Nat.lt_of_le_of_lt (nodeIdsDrawn_mono s a t ht) hb
  · rintro s ⟨disks, rfl⟩
    exact nodeInv_start disks
  · intro s a t _ _ ht hb h
    exact nodeInv_move hb (step_move ht) h

end

end ToyDfs

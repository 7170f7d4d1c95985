import Mathlib.Data.List.Basic

/-!
# Overlapping requests

A component issues requests without waiting for the ones before, and shows the response that arrived last. The
requests are numbered in the order in which they are issued.
-/

namespace JavaScript

variable {α β : Type}

/-- What was asked for, the numbers of the requests that are under way, and the response that is shown. -/
structure Requests (α β : Type) where
  issued : List α
  pending : List Nat
  shown : Option (Nat × β)

def Requests.none : Requests α β := ⟨[], [], .none⟩

/-- `fetch`. -/
def Requests.issue (s : Requests α β) (request : α) : Requests α β :=
  { s with issued := s.issued ++ [request], pending := s.pending ++ [s.issued.length] }

/-- The `k`-th request is answered: `setState(await …)`, which an error does not come to. -/
def Requests.arrive (s : Requests α β) (k : Nat) (response : Option β) : Option (Requests α β) :=
  if k ∈ s.pending then
    some { s with pending := s.pending.erase k, shown := (response.map fun r => (k, r)).or s.shown }
  else .none

variable {s s' : Requests α β}

/-! ## Issuing -/

@[simp] theorem issued_issue (request : α) : (s.issue request).issued = s.issued ++ [request] := rfl

@[simp] theorem shown_issue (request : α) : (s.issue request).shown = s.shown := rfl

/-! ## Arriving -/

/-- A response arrives once, leaves what was asked for, and is shown unless it is an error. -/
theorem arrive_some {k : Nat} {response : Option β} (h : s.arrive k response = some s') :
    k ∈ s.pending ∧ s'.issued = s.issued ∧ s'.pending = s.pending.erase k ∧
      s'.shown = (response.map fun r => (k, r)).or s.shown := by
  unfold Requests.arrive at h
  split at h
  next hk =>
    cases h
    exact ⟨hk, rfl, rfl, rfl⟩
  next => cases h

/-! ## Numbers -/

/-- The numbers under way are those of issued requests. -/
def Requests.Numbered (s : Requests α β) : Prop := ∀ k ∈ s.pending, k < s.issued.length

theorem Requests.Numbered.issue (h : s.Numbered) (request : α) : (s.issue request).Numbered := by
  intro k hk
  rw [issued_issue, List.length_append, List.length_singleton]
  rcases List.mem_append.mp hk with hk | hk
  · have hlt := h k hk
    omega
  · rw [List.mem_singleton.mp hk]
    omega

theorem Requests.Numbered.arrive (h : s.Numbered) {k : Nat} {response : Option β}
    (harrive : s.arrive k response = some s') : s'.Numbered := by
  obtain ⟨_, hissued, hpending, _⟩ := arrive_some harrive
  intro k' hk'
  rw [hpending] at hk'
  rw [hissued]
  exact h k' (List.mem_of_mem_erase hk')

end JavaScript

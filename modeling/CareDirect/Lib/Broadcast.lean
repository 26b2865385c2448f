import Mathlib.Data.List.Basic

/-!
# Observers of one value

A value is observed by any number of observers, none of which is ever removed. A new value makes one call due for every
observer, in the order of registration; a new observer makes one call due if there is a value already. The calls are
made one at a time, first come first served.

Suppose every call overwrites one variable with a function of its observer and value. Then only the last observer
counts: once no call is due, the variable is what the last observer makes of the current value, whatever was registered
and published in between (`UpToDate`).
-/

/-- The observers, the current value, and the calls that are due. -/
structure Broadcast (κ ρ : Type*) where
  observers : List κ := []
  current : Option ρ := none
  pending : List (κ × ρ) := []

namespace Broadcast

variable {κ ρ α : Type*} (b : Broadcast κ ρ)

/-- A new observer. -/
def observe (k : κ) : Broadcast κ ρ where
  observers := b.observers ++ [k]
  current := b.current
  pending := b.pending ++ (b.current.map fun r => (k, r)).toList

/-- A new value. -/
def publish (r : ρ) : Broadcast κ ρ where
  observers := b.observers
  current := some r
  pending := b.pending ++ b.observers.map fun k => (k, r)

/-- The call that is made next, and what is due after it. -/
def next : Option ((κ × ρ) × Broadcast κ ρ) :=
  match b.pending with
  | [] => none
  | call :: pending => some (call, { b with pending })

variable {b} {b' : Broadcast κ ρ} {f : κ → ρ → α} {x : α} {k : κ} {r : ρ} {call : κ × ρ} {P : ρ → Prop}

theorem next_some : b.next = some (call, b') ↔ b.pending = call :: b'.pending ∧ b'.observers = b.observers ∧
    b'.current = b.current := by
  obtain ⟨observers, current, pending⟩ := b
  obtain ⟨observers', current', pending'⟩ := b'
  cases pending with
  | nil => simp [next]
  | cons call' pending => simp [next, and_assoc, eq_comm]; grind

theorem next_none : b.next = none ↔ b.pending = [] := by
  unfold next
  split <;> simp [*]

/-! ## Values -/

/-- Every value of a call that is due satisfies `P`, and so does the current one. -/
structure Published (P : ρ → Prop) (b : Broadcast κ ρ) : Prop where
  current : ∀ r, b.current = some r → P r
  pending : ∀ call ∈ b.pending, P call.2

theorem Published.observe (h : b.Published P) (k : κ) : (b.observe k).Published P := by
  refine ⟨h.current, fun call hcall => ?_⟩
  rcases List.mem_append.1 hcall with hold | hnew
  · exact h.pending call hold
  · obtain ⟨r, hr, rfl⟩ := Option.map_eq_some_iff.1 (Option.mem_toList.1 hnew)
    exact h.current r hr

theorem Published.publish (h : b.Published P) (hr : P r) : (b.publish r).Published P := by
  refine ⟨fun r' hr' => Option.some.inj hr' ▸ hr, fun call hcall => ?_⟩
  rcases List.mem_append.1 hcall with hold | hnew
  · exact h.pending call hold
  · obtain ⟨k, -, rfl⟩ := List.mem_map.1 hnew
    exact hr

theorem Published.next (h : b.Published P) (hnext : b.next = some (call, b')) : P call.2 ∧ b'.Published P := by
  obtain ⟨hpending, -, hcurrent⟩ := next_some.1 hnext
  have hall := h.pending
  rw [hpending, List.forall_mem_cons] at hall
  exact ⟨hall.1, fun r hr => h.current r (hcurrent ▸ hr), hall.2⟩

/-! ## The last observer -/

/-- The last call that is due is the one of the last observer with the current value; if none is due, the variable is
what that call has left in it. -/
def UpToDate (f : κ → ρ → α) (b : Broadcast κ ρ) (x : α) : Prop :=
  ∀ k r, b.observers.getLast? = some k → b.current = some r →
    b.pending.getLast? = some (k, r) ∨ b.pending = [] ∧ x = f k r

/-- A new observer is called last. -/
theorem UpToDate.observe (f : κ → ρ → α) (b : Broadcast κ ρ) (k : κ) (x : α) : UpToDate f (b.observe k) x := by
  intro k' r hk hr
  have hcurrent : b.current = some r := hr
  rw [Broadcast.observe, List.getLast?_concat] at hk
  cases hk
  refine .inl ?_
  simp [Broadcast.observe, hcurrent]

/-- A new value reaches the last observer last. -/
theorem UpToDate.publish (f : κ → ρ → α) (b : Broadcast κ ρ) (r : ρ) (x : α) : UpToDate f (b.publish r) x := by
  intro k r' hk hr
  cases hr
  have hlast : b.observers.getLast? = some k := hk
  refine .inl ?_
  simp [Broadcast.publish, hlast]

/-- A call overwrites the variable. -/
theorem UpToDate.next (h : UpToDate f b x) (hnext : b.next = some (call, b')) : UpToDate f b' (f call.1 call.2) := by
  obtain ⟨hpending, hobservers, hcurrent⟩ := next_some.1 hnext
  intro k r hk hr
  have hlast := (h k r (hobservers ▸ hk) (hcurrent ▸ hr)).resolve_right fun hnil => by simp [hpending] at hnil
  cases hrest : b'.pending with
  | nil =>
    rw [hpending, hrest, List.getLast?_singleton] at hlast
    cases hlast
    exact .inr ⟨rfl, rfl⟩
  | cons call' rest =>
    rw [hpending, hrest, List.getLast?_cons_cons] at hlast
    exact .inl hlast

end Broadcast

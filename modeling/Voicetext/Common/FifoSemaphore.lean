import Mathlib.Algebra.GroupWithZero.Nat
import Mathlib.Algebra.Order.BigOperators.Group.List
import Mathlib.Algebra.Order.Group.Nat
import Mathlib.Data.List.Nodup

/-!
# A fair counting semaphore

Permits that are given back go to the oldest waiter first, which keeps them until it has all it asked for.
Every permit is free, assigned to a waiter or held, so a holder of all of them is the only one.
-/

namespace Voicetext.Common

variable {α : Type*}

/-- A caller in the queue, with the permits it asked for and those it still misses. -/
structure Waiter (α : Type*) where
  holder : α
  requested : ℕ
  missing : ℕ
deriving DecidableEq

/-- A semaphore, the oldest waiter first, with the permits it has given out. -/
structure FifoSemaphore (α : Type*) where
  available : ℕ
  queue : List (Waiter α)
  held : List (α × ℕ)
deriving DecidableEq

namespace FifoSemaphore

variable (s : FifoSemaphore α)

/-- A semaphore with all its permits. -/
def new (permits : ℕ) : FifoSemaphore α := ⟨permits, [], []⟩

/-- Take permits which are available at once. -/
def tryAcquire (a : α) (n : ℕ) : Option (FifoSemaphore α) :=
  if n ≤ s.available then some { s with available := s.available - n, held := (a, n) :: s.held } else none

/-- Take permits, or queue for those that are missing. -/
def acquire (a : α) (n : ℕ) : FifoSemaphore α :=
  (s.tryAcquire a n).getD { s with available := 0, queue := s.queue ++ [⟨a, n, n - s.available⟩] }

/-- Assign permits to the waiters of a queue in turn. -/
def assign (available : ℕ) : List (Waiter α) → List (α × ℕ) → ℕ → FifoSemaphore α
  | [], held, n => ⟨available + n, [], held⟩
  | waiter :: queue, held, n =>
    if waiter.missing ≤ n then assign available queue ((waiter.holder, waiter.requested) :: held) (n - waiter.missing)
    else ⟨available, { waiter with missing := waiter.missing - n } :: queue, held⟩

section Release

variable [DecidableEq α] (a : α)

/-- The permits which are assigned to a caller. -/
def assignedTo : ℕ :=
  ((s.queue.filter (·.holder = a)).map fun waiter => waiter.requested - waiter.missing).sum +
    ((s.held.filter (·.1 = a)).map Prod.snd).sum

/-- A caller drops its permits, or its place in the queue with what it was assigned so far. -/
def release : FifoSemaphore α :=
  assign s.available (s.queue.filter (·.holder ≠ a)) (s.held.filter (·.1 ≠ a)) (s.assignedTo a)

end Release

/-- A caller waits for permits. -/
def Queued (a : α) (n : ℕ) : Prop := ∃ waiter ∈ s.queue, waiter.holder = a ∧ waiter.requested = n

/-- A caller has the permits it asked for. -/
def Granted (a : α) (n : ℕ) : Prop := (a, n) ∈ s.held

/-- A caller waits for permits or has them. -/
def Engaged (a : α) (n : ℕ) : Prop := s.Granted a n ∨ s.Queued a n

/-- The permits that are free, assigned or held. -/
def total : ℕ :=
  s.available + (s.queue.map fun waiter => waiter.requested - waiter.missing).sum + (s.held.map Prod.snd).sum

/-- The callers in the queue, the oldest first. -/
def waiting : List α := s.queue.map (·.holder)

/-- Nobody is in the queue behind a caller. -/
def LastInQueue (a : α) : Prop := ∀ b ∈ s.waiting.getLast?, b = a

/-- Waiters miss permits, none are free while someone waits, and callers wait or hold at most once. -/
structure WellFormed : Prop where
  missing : ∀ waiter ∈ s.queue, 0 < waiter.missing ∧ waiter.missing ≤ waiter.requested
  none_free : s.queue ≠ [] → s.available = 0
  nodup : (s.waiting ++ s.held.map Prod.fst).Nodup

variable {s} {a b : α} {n m : ℕ}

theorem wellFormed_new (permits : ℕ) : (new permits : FifoSemaphore α).WellFormed := by
  refine ⟨nofun, fun h => absurd rfl h, List.nodup_nil⟩

@[simp] theorem total_new (permits : ℕ) : (new permits : FifoSemaphore α).total = permits := rfl

theorem Queued.mem_waiting (h : s.Queued a n) : a ∈ s.waiting := by
  obtain ⟨waiter, hwaiter, rfl, -⟩ := h
  exact List.mem_map_of_mem hwaiter

theorem exists_queued (h : a ∈ s.waiting) : ∃ n, s.Queued a n := by
  obtain ⟨waiter, hwaiter, rfl⟩ := List.mem_map.mp h
  exact ⟨waiter.requested, waiter, hwaiter, rfl, rfl⟩

/-- A caller does not wait for what it holds. -/
theorem WellFormed.not_queued (h : s.WellFormed) (hgranted : s.Granted a n) : ¬ s.Queued a m := fun hqueued =>
  (List.nodup_append.mp h.nodup).2.2 a hqueued.mem_waiting a (List.mem_map_of_mem hgranted) rfl

theorem not_engaged_new (permits : ℕ) : ¬ (new permits : FifoSemaphore α).Engaged a n := by
  simp [Engaged, Granted, Queued, new]

/-! ## Taking permits -/

/-- What taking permits does: all are there, or the caller queues for the rest. -/
theorem acquire_cases (s : FifoSemaphore α) (a : α) (n : ℕ) :
    n ≤ s.available ∧ s.acquire a n = { s with available := s.available - n, held := (a, n) :: s.held } ∨
      s.available < n ∧
        s.acquire a n = { s with available := 0, queue := s.queue ++ [⟨a, n, n - s.available⟩] } := by
  unfold acquire tryAcquire
  by_cases h : n ≤ s.available
  · exact .inl ⟨h, by rw [if_pos h]; rfl⟩
  · exact .inr ⟨Nat.lt_of_not_le h, by rw [if_neg h]; rfl⟩

/-- Permits which are taken at once are taken. -/
theorem acquire_of_tryAcquire {s' : FifoSemaphore α} (h : s.tryAcquire a n = some s') : s.acquire a n = s' := by
  rw [acquire, h, Option.getD_some]

theorem granted_of_tryAcquire {s' : FifoSemaphore α} (h : s.tryAcquire a n = some s') : s'.Granted a n := by
  unfold tryAcquire at h
  split at h
  · obtain rfl := Option.some.inj h
    exact List.mem_cons_self
  · cases h

theorem waiting_of_tryAcquire {s' : FifoSemaphore α} (h : s.tryAcquire a n = some s') : s'.waiting = s.waiting := by
  unfold tryAcquire at h
  split at h
  · obtain rfl := Option.some.inj h
    rfl
  · cases h

/-- Afterwards the caller holds or waits. -/
theorem granted_or_queued (s : FifoSemaphore α) (a : α) (n : ℕ) :
    (s.acquire a n).Granted a n ∨ (s.acquire a n).Queued a n := by
  obtain ⟨-, h⟩ | ⟨-, h⟩ := acquire_cases s a n
  · exact .inl (by simp [h, Granted])
  · exact .inr (by simp [h, Queued])

theorem Granted.acquire (h : s.Granted b m) : (s.acquire a n).Granted b m := by
  obtain ⟨-, heq⟩ | ⟨-, heq⟩ := acquire_cases s a n
  · rw [heq]
    exact List.mem_cons_of_mem _ h
  · rw [heq]
    exact h

theorem Queued.acquire (h : s.Queued b m) : (s.acquire a n).Queued b m := by
  obtain ⟨waiter, hwaiter, hholder⟩ := h
  obtain ⟨-, heq⟩ | ⟨-, heq⟩ := acquire_cases s a n
  · rw [heq]
    exact ⟨waiter, hwaiter, hholder⟩
  · rw [heq]
    exact ⟨waiter, List.mem_append_left _ hwaiter, hholder⟩

/-- Nobody else comes to hold permits. -/
theorem granted_of_acquire (h : (s.acquire a n).Granted b m) : s.Granted b m ∨ b = a ∧ m = n := by
  obtain ⟨-, heq⟩ | ⟨-, heq⟩ := acquire_cases s a n
  · rw [heq] at h
    obtain h | h := List.mem_cons.mp h
    · exact .inr (Prod.mk.inj h)
    · exact .inl h
  · rw [heq] at h
    exact .inl h

/-- Nobody else comes to wait. -/
theorem queued_of_acquire (h : (s.acquire a n).Queued b m) : s.Queued b m ∨ b = a ∧ m = n := by
  obtain ⟨-, heq⟩ | ⟨-, heq⟩ := acquire_cases s a n
  · rw [heq] at h
    exact .inl h
  · rw [heq] at h
    obtain ⟨waiter, hwaiter, rfl, rfl⟩ := h
    obtain hwaiter | hwaiter := List.mem_append.mp hwaiter
    · exact .inl ⟨waiter, hwaiter, rfl, rfl⟩
    · obtain rfl := List.mem_singleton.mp hwaiter
      exact .inr ⟨rfl, rfl⟩

theorem Engaged.acquire (h : s.Engaged b m) : (s.acquire a n).Engaged b m :=
  h.imp Granted.acquire Queued.acquire

theorem engaged_of_acquire (h : (s.acquire a n).Engaged b m) : s.Engaged b m ∨ b = a ∧ m = n := by
  obtain h | h := h
  · exact (granted_of_acquire h).imp_left .inl
  · exact (queued_of_acquire h).imp_left .inr

@[simp] theorem total_acquire (s : FifoSemaphore α) (a : α) (n : ℕ) : (s.acquire a n).total = s.total := by
  obtain ⟨h, heq⟩ | ⟨h, heq⟩ := acquire_cases s a n
  · simp only [heq, total, List.map_cons, List.sum_cons]
    omega
  · simp only [heq, total, List.map_append, List.map_cons, List.map_nil, List.sum_append, List.sum_cons, List.sum_nil]
    omega

/-- Who takes part for the first time queues last, and everything stays in order. -/
theorem WellFormed.acquire (h : s.WellFormed) (hfresh : ∀ m, ¬ s.Engaged a m) (hpos : 0 < n) :
    (s.acquire a n).WellFormed := by
  have hnodup := h.nodup
  have hwaiting (hmem : a ∈ s.waiting) : False := by
    obtain ⟨m, hqueued⟩ := exists_queued hmem
    exact hfresh m (.inr hqueued)
  have hheld (hmem : a ∈ s.held.map Prod.fst) : False := by
    obtain ⟨⟨_, m⟩, hgranted, rfl⟩ := List.mem_map.mp hmem
    exact hfresh m (.inl hgranted)
  obtain ⟨hle, heq⟩ | ⟨hlt, heq⟩ := acquire_cases s a n
  · rw [heq]
    refine ⟨h.missing, fun hqueue => ?_, ?_⟩
    · have hfree := h.none_free hqueue
      exact absurd hle (by omega)
    · refine (List.perm_middle.nodup_iff).mpr (List.nodup_cons.mpr ⟨fun hmem => ?_, hnodup⟩)
      exact (List.mem_append.mp hmem).elim hwaiting hheld
  · rw [heq]
    refine ⟨fun waiter hwaiter => ?_, fun _ => rfl, ?_⟩
    · obtain hwaiter | hwaiter := List.mem_append.mp hwaiter
      · exact h.missing waiter hwaiter
      · obtain rfl := List.mem_singleton.mp hwaiter
        exact ⟨Nat.sub_pos_of_lt hlt, Nat.sub_le _ _⟩
    · simp only [waiting, List.map_append, List.map_cons, List.map_nil, List.append_assoc, List.singleton_append]
      refine (List.perm_middle.nodup_iff).mpr (List.nodup_cons.mpr ⟨fun hmem => ?_, hnodup⟩)
      exact (List.mem_append.mp hmem).elim hwaiting hheld

/-- A caller that takes permits is the last in the queue, if it is in the queue. -/
theorem WellFormed.lastInQueue_acquire (h : s.WellFormed) (hpos : 0 < n) : (s.acquire a n).LastInQueue a := by
  obtain ⟨hle, heq⟩ | ⟨hlt, heq⟩ := acquire_cases s a n
  · have hqueue : s.queue = [] := by
      by_contra hqueue
      have hfree := h.none_free hqueue
      omega
    simp [LastInQueue, heq, waiting, hqueue]
  · simp [LastInQueue, heq, waiting]

/-! ## Giving permits back -/

section Assign

variable {available : ℕ} {queue : List (Waiter α)} {held : List (α × ℕ)}

theorem granted_assign_of_mem (h : (b, m) ∈ held) : (assign available queue held n).Granted b m := by
  induction queue generalizing held n with
  | nil => exact h
  | cons waiter queue ih =>
    unfold assign
    split
    · exact ih (List.mem_cons_of_mem _ h)
    · exact h

theorem granted_assign (h : (assign available queue held n).Granted b m) :
    (b, m) ∈ held ∨ ∃ waiter ∈ queue, waiter.holder = b ∧ waiter.requested = m := by
  induction queue generalizing held n with
  | nil => exact .inl h
  | cons waiter queue ih =>
    unfold assign at h
    split at h
    · obtain hmem | ⟨other, hother, hholder⟩ := ih h
      · obtain heq | hmem := List.mem_cons.mp hmem
        · obtain ⟨rfl, rfl⟩ := Prod.mk.inj heq
          exact .inr ⟨waiter, List.mem_cons_self, rfl, rfl⟩
        · exact .inl hmem
      · exact .inr ⟨other, List.mem_cons_of_mem _ hother, hholder⟩
    · exact .inl h

theorem queued_assign (h : (assign available queue held n).Queued b m) :
    ∃ waiter ∈ queue, waiter.holder = b ∧ waiter.requested = m := by
  induction queue generalizing held n with
  | nil => simp [Queued, assign] at h
  | cons waiter queue ih =>
    unfold assign at h
    split at h
    · obtain ⟨other, hother, hholder⟩ := ih h
      exact ⟨other, List.mem_cons_of_mem _ hother, hholder⟩
    · obtain ⟨other, hother, rfl, rfl⟩ := h
      obtain rfl | hother := List.mem_cons.mp hother
      · exact ⟨waiter, List.mem_cons_self, rfl, rfl⟩
      · exact ⟨other, List.mem_cons_of_mem _ hother, rfl, rfl⟩

/-- A waiter gets its permits or goes on waiting. -/
theorem granted_or_queued_assign {waiter : Waiter α} (h : waiter ∈ queue) :
    (assign available queue held n).Granted waiter.holder waiter.requested ∨
      (assign available queue held n).Queued waiter.holder waiter.requested := by
  induction queue generalizing held n with
  | nil => cases h
  | cons first queue ih =>
    unfold assign
    split
    · obtain rfl | h := List.mem_cons.mp h
      · exact .inl (granted_assign_of_mem List.mem_cons_self)
      · exact ih h
    · obtain rfl | h := List.mem_cons.mp h
      · exact .inr ⟨{ waiter with missing := waiter.missing - n }, List.mem_cons_self, rfl, rfl⟩
      · exact .inr ⟨waiter, List.mem_cons_of_mem _ h, rfl, rfl⟩

theorem waiting_assign : (assign available queue held n).waiting <:+ queue.map (·.holder) := by
  induction queue generalizing held n with
  | nil => exact List.suffix_refl _
  | cons waiter queue ih =>
    unfold assign
    split
    · exact ih.trans (List.suffix_cons _ _)
    · exact List.suffix_refl _

theorem names_assign : ((assign available queue held n).waiting ++
    (assign available queue held n).held.map Prod.fst).Perm (queue.map (·.holder) ++ held.map Prod.fst) := by
  induction queue generalizing held n with
  | nil => exact .refl _
  | cons waiter queue ih =>
    unfold assign
    split
    · exact ih.trans List.perm_middle
    · exact .refl _

theorem missing_assign (hqueue : ∀ waiter ∈ queue, 0 < waiter.missing ∧ waiter.missing ≤ waiter.requested) :
    ∀ waiter ∈ (assign available queue held n).queue, 0 < waiter.missing ∧ waiter.missing ≤ waiter.requested := by
  induction queue generalizing held n with
  | nil => exact nofun
  | cons first queue ih =>
    obtain ⟨hfirst, hrest⟩ := List.forall_mem_cons.mp hqueue
    unfold assign
    split
    · exact ih hrest
    · rename_i hmissing
      exact List.forall_mem_cons.mpr
        ⟨⟨Nat.sub_pos_of_lt (Nat.lt_of_not_le hmissing), Nat.le_trans (Nat.sub_le _ _) hfirst.2⟩, hrest⟩

theorem available_assign (h : (assign available queue held n).queue ≠ []) :
    (assign available queue held n).available = available := by
  induction queue generalizing held n with
  | nil => exact absurd rfl h
  | cons waiter queue ih =>
    unfold assign at h ⊢
    split at h
    · rename_i hmissing
      rw [if_pos hmissing]
      exact ih h
    · rename_i hmissing
      rw [if_neg hmissing]

theorem total_assign (hqueue : ∀ waiter ∈ queue, 0 < waiter.missing ∧ waiter.missing ≤ waiter.requested) :
    (assign available queue held n).total =
      available + n + (queue.map fun waiter => waiter.requested - waiter.missing).sum + (held.map Prod.snd).sum := by
  induction queue generalizing held n with
  | nil => simp [assign, total]
  | cons waiter queue ih =>
    obtain ⟨⟨-, hle⟩, hrest⟩ := List.forall_mem_cons.mp hqueue
    unfold assign
    split
    · rename_i hmissing
      rw [ih hrest]
      simp only [List.map_cons, List.sum_cons]
      omega
    · rename_i hmissing
      simp only [total, List.map_cons, List.sum_cons]
      omega

end Assign

section Release

variable [DecidableEq α]

theorem mem_waiting_filter {waiter : Waiter α} :
    waiter ∈ s.queue.filter (·.holder ≠ a) ↔ waiter ∈ s.queue ∧ waiter.holder ≠ a := by
  rw [List.mem_filter, decide_eq_true_eq]

theorem Granted.release (h : s.Granted b m) (hne : b ≠ a) : (s.release a).Granted b m :=
  granted_assign_of_mem (List.mem_filter.mpr ⟨h, decide_eq_true hne⟩)

/-- Whoever gets permits from what is given back was waiting for them. -/
theorem granted_of_release (h : (s.release a).Granted b m) : b ≠ a ∧ (s.Granted b m ∨ s.Queued b m) := by
  obtain hmem | ⟨waiter, hwaiter, rfl, rfl⟩ := granted_assign h
  · obtain ⟨hmem, hne⟩ := List.mem_filter.mp hmem
    exact ⟨of_decide_eq_true hne, .inl hmem⟩
  · obtain ⟨hwaiter, hne⟩ := mem_waiting_filter.mp hwaiter
    exact ⟨hne, .inr ⟨waiter, hwaiter, rfl, rfl⟩⟩

theorem queued_of_release (h : (s.release a).Queued b m) : b ≠ a ∧ s.Queued b m := by
  obtain ⟨waiter, hwaiter, rfl, rfl⟩ := queued_assign h
  obtain ⟨hwaiter, hne⟩ := mem_waiting_filter.mp hwaiter
  exact ⟨hne, waiter, hwaiter, rfl, rfl⟩

theorem Queued.release (h : s.Queued b m) (hne : b ≠ a) :
    (s.release a).Granted b m ∨ (s.release a).Queued b m := by
  obtain ⟨waiter, hwaiter, rfl, rfl⟩ := h
  exact granted_or_queued_assign (mem_waiting_filter.mpr ⟨hwaiter, hne⟩)

theorem Engaged.release (h : s.Engaged b m) (hne : b ≠ a) : (s.release a).Engaged b m := by
  obtain h | h := h
  · exact .inl (h.release hne)
  · exact h.release hne

theorem engaged_of_release (h : (s.release a).Engaged b m) : b ≠ a ∧ s.Engaged b m := by
  obtain h | h := h
  · exact granted_of_release h
  · exact (queued_of_release h).imp_right .inr

theorem WellFormed.release (h : s.WellFormed) : (s.release a).WellFormed := by
  have hqueue := fun waiter hwaiter => h.missing waiter (mem_waiting_filter (a := a).mp hwaiter).1
  refine ⟨missing_assign hqueue, fun hwaits => ?_, ?_⟩
  · refine (available_assign hwaits).trans (h.none_free fun hempty => hwaits ?_)
    simp [FifoSemaphore.release, hempty, assign]
  · refine (names_assign.nodup_iff).mpr (h.nodup.sublist ?_)
    exact (List.filter_sublist.map _).append (List.filter_sublist.map _)

theorem total_release (h : s.WellFormed) (a : α) : (s.release a).total = s.total := by
  have hqueue := fun waiter hwaiter => h.missing waiter (mem_waiting_filter (a := a).mp hwaiter).1
  have hsplit {β : Type _} (l : List β) (p : β → Prop) [DecidablePred p] (f : β → ℕ) :
      (l.map f).sum = ((l.filter (p ·)).map f).sum + ((l.filter (¬ p ·)).map f).sum := by
    induction l with
    | nil => rfl
    | cons x l ih =>
      by_cases hx : p x
      · simp [hx, ih, Nat.add_assoc]
      · simp [hx, ih, Nat.add_left_comm]
  unfold FifoSemaphore.release
  rw [total_assign hqueue, assignedTo, total, hsplit s.queue (·.holder = a), hsplit s.held (·.1 = a)]
  simp only [ne_eq]
  omega

theorem waiting_release : (s.release a).waiting <:+ s.waiting.filter (· ≠ a) := by
  have hmap : (s.queue.filter (·.holder ≠ a)).map (·.holder) = s.waiting.filter (· ≠ a) := by
    rw [waiting, List.filter_map]
    rfl
  exact hmap ▸ waiting_assign

/-- Who is the last in the queue stays the last when another leaves. -/
theorem LastInQueue.release (h : s.LastInQueue a) (hne : a ≠ b) : (s.release b).LastInQueue a := by
  intro c hc
  obtain ⟨kept, hkept⟩ := List.getLast?_eq_some_iff.mp hc
  obtain ⟨left, hleft⟩ := waiting_release (s := s) (a := b)
  -- what is left of the queue is not empty, so neither was the queue
  obtain hempty | ⟨front, last, hwaiting⟩ := s.waiting.eq_nil_or_concat
  · rw [hempty, hkept] at hleft
    simp at hleft
  · obtain rfl : last = a := h last (by simp [hwaiting])
    have hfilter : s.waiting.filter (· ≠ b) = front.filter (· ≠ b) ++ [last] := by simp [hwaiting, hne]
    rw [hfilter, hkept, ← List.append_assoc] at hleft
    exact (List.append_inj' hleft rfl).2 |> List.singleton_inj.mp

end Release

/-! ## Holding permits -/

/-- Two holders never have more permits than there are. -/
theorem add_le_total (ha : s.Granted a n) (hb : s.Granted b m) (hne : a ≠ b) : n + m ≤ s.total := by
  obtain ⟨before, after, hheld⟩ := List.append_of_mem ha
  have hsum : (s.held.map Prod.snd).sum = n + ((before ++ after).map Prod.snd).sum := by
    simp [hheld, Nat.add_left_comm]
  have hb : (b, m) ∈ before ++ after := by
    have hb : (b, m) ∈ s.held := hb
    simpa [hheld, Ne.symm hne] using hb
  have hle := List.le_sum_of_mem (List.mem_map_of_mem (f := Prod.snd) hb)
  unfold total
  omega

/-- Who holds permits and is not behind anyone has nobody behind it. -/
theorem WellFormed.waiting_eq_nil (h : s.WellFormed) (hgranted : s.Granted a n) (hlast : s.LastInQueue a) :
    s.waiting = [] := by
  obtain hempty | ⟨front, last, hwaiting⟩ := s.waiting.eq_nil_or_concat
  · exact hempty
  · obtain rfl : last = a := hlast last (by simp [hwaiting])
    obtain ⟨m, hqueued⟩ := exists_queued (s := s) (a := last) (by simp [hwaiting])
    exact absurd hqueued (h.not_queued hgranted)

end FifoSemaphore

end Voicetext.Common

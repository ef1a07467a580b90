import Lockstep.Proofs.Pausing

/-!
The ticks of a pacer are due at times that do not depend on when somebody looks. Each is counted
from the one before it, so that late looks, looks in a bunch and looks that find nothing due all
come to the same: at the end as many ticks have been taken as were due by then. How long the ticks
of a fast forward are does not matter, as long as they last.
-/
namespace Lockstep

namespace Pacer
variable {p q : Pacer} {gap : Nanos → Nanos} {first last now : Nanos} {count : Nat}

/-! When ticks are due. -/

/-- The time of a tick, where the first is given and each is a `gap` after the one before. -/
def dueAt (gap : Nanos → Nanos) (first : Nanos) : Nat → Nanos
  | 0 => first
  | i + 1 => dueAt gap (first + gap first) i

theorem dueAt_succ (gap : Nanos → Nanos) (first : Nanos) (i : Nat) :
    dueAt gap first (i + 1) = dueAt gap first i + gap (dueAt gap first i) := by
  induction i generalizing first with
  | zero => rfl
  | succ i ih => exact ih (first + gap first)

theorem dueAt_const (duration first : Nanos) (i : Nat) :
    dueAt (fun _ => duration) first i = first + i * duration := by
  induction i with
  | zero => rw [Nat.zero_mul, Nat.add_zero, dueAt]
  | succ i ih => rw [dueAt_succ, ih, Nat.succ_mul, Nat.add_assoc]

theorem le_dueAt (hgap : ∀ due, 0 < gap due) (first : Nanos) (i : Nat) :
    first + i ≤ dueAt gap first i := by
  induction i with
  | zero => exact Nat.le_refl first
  | succ i ih =>
    rw [dueAt_succ, ← Nat.add_assoc]
    exact Nat.add_le_add ih (hgap (dueAt gap first i))

/-- So many ticks are due by the time `last`. -/
structure CountsTo (gap : Nanos → Nanos) (first last : Nanos) (count : Nat) : Prop where
  due : ∀ i < count, dueAt gap first i ≤ last
  next : last < dueAt gap first count

theorem exists_countsTo (hgap : ∀ due, 0 < gap due) (first last : Nanos) :
    ∃ count, CountsTo gap first last count := by
  have hlate : ∃ i, last < dueAt gap first i := by
    have hfar : last + 1 ≤ first + (last + 1) := Nat.le_add_left _ _
    exact ⟨last + 1, hfar.trans (le_dueAt hgap first (last + 1))⟩
  refine ⟨Nat.find hlate, ?_, Nat.find_spec hlate⟩
  intro i hi
  exact Nat.not_lt.mp (Nat.find_min hlate hi)

theorem CountsTo.eq_zero (h : CountsTo gap first last count) (hlast : last < first) :
    count = 0 := by
  by_contra hne
  have hdue : first ≤ last := h.due 0 (Nat.pos_of_ne_zero hne)
  exact absurd hlast (Nat.not_lt.mpr hdue)

theorem CountsTo.step (h : CountsTo gap first last count) (hlast : first ≤ last) :
    ∃ rest, count = rest + 1 ∧ CountsTo gap (first + gap first) last rest := by
  cases count with
  | zero => exact absurd h.next (Nat.not_lt.mpr hlast)
  | succ rest => exact ⟨rest, rfl, fun i hi => h.due (i + 1) (Nat.succ_lt_succ hi), h.next⟩

theorem CountsTo.eq_div {duration : Nanos} (h : CountsTo (fun _ => duration) first last count)
    (hlast : first ≤ last) : count = (last - first) / duration + 1 := by
  obtain ⟨rest, rfl, -⟩ := h.step hlast
  have hdue := h.due rest (Nat.lt_succ_self rest)
  have hnext := h.next
  rw [dueAt_const] at hdue hnext
  have hrest : (last - first) / duration = rest :=
    Nat.div_eq_of_lt_le (Nat.le_sub_of_add_le' hdue) (Nat.sub_lt_left_of_lt_add hlast hnext)
  rw [hrest]

/-! Looks at the clock. -/

def pollBy (gap : Nanos → Nanos) (p : Pacer) (now : Nanos) : Except TimeOverflow (Option Pacer) :=
  match p.deadline with
  | none => .ok none
  | some due =>
    if now < due then .ok none
    else do
      let next ← due.plus (gap due)
      return some { p with lastTick := due, deadline := some next }

def looks (look : Pacer → Nanos → Except TimeOverflow (Option Pacer)) :
    List Nanos → Pacer → Except TimeOverflow (Nat × Pacer)
  | [], p => .ok (0, p)
  | now :: times, p => do
    match ← look p now with
    | none => looks look times p
    | some next =>
      let (count, after) ← looks look times next
      return (count + 1, after)

variable {look : Pacer → Nanos → Except TimeOverflow (Option Pacer)} {times : List Nanos}

theorem looks_cons_none (h : look p now = .ok none) :
    looks look (now :: times) p = looks look times p := by
  simp only [looks, h, bind, Except.bind]

theorem looks_cons_some (h : look p now = .ok (some q)) :
    looks look (now :: times) p = (looks look times q).map fun r => (r.1 + 1, r.2) := by
  simp only [looks, h, bind, Except.bind]
  cases looks look times q <;> rfl

theorem looks_idle (h : ∀ now ∈ times, look p now = .ok none) : looks look times p = .ok (0, p) := by
  induction times with
  | nil => rfl
  | cons now times ih =>
    obtain ⟨hnow, htimes⟩ := List.forall_mem_cons.mp h
    rw [looks_cons_none hnow, ih htimes]

theorem looks_append_idle {after : Pacer} (h : looks look times p = .ok (count, after))
    (hlast : look after last = .ok none) (more : Nat) :
    looks look (times ++ List.replicate more last) p = .ok (count, after) := by
  induction times generalizing p count with
  | nil =>
    cases h
    refine looks_idle fun now hnow => ?_
    rw [List.eq_of_mem_replicate hnow]
    exact hlast
  | cons now times ih =>
    cases hlook : look p now with
    | error e =>
      rw [looks, hlook] at h
      cases h
    | ok next =>
      cases next with
      | none =>
        rw [looks_cons_none hlook] at h
        rw [List.cons_append, looks_cons_none hlook, ih h]
      | some next =>
        rw [looks_cons_some hlook] at h
        rw [List.cons_append, looks_cons_some hlook]
        cases hrest : looks look times next with
        | error e =>
          rw [hrest] at h
          cases h
        | ok rest =>
          rw [hrest] at h
          cases h
          rw [ih hrest]
          rfl

/-- What comes of looks at the given times and then at the time `last`, until nothing is due. -/
def LooksOut (look : Pacer → Nanos → Except TimeOverflow (Option Pacer)) (times : List Nanos)
    (last : Nanos) (p : Pacer) (count : Nat) (after : Pacer) : Prop :=
  ∃ more, looks look (times ++ List.replicate more last) p = .ok (count, after) ∧
    look after last = .ok none

theorem LooksOut.unique {m n : Nat} {after other : Pacer} (h : LooksOut look times last p m after)
    (h' : LooksOut look times last p n other) : m = n ∧ after = other := by
  obtain ⟨more, hlooks, hidle⟩ := h
  obtain ⟨more', hlooks', hidle'⟩ := h'
  -- both are the looks at the same times once each has as many at the end as the two together
  have hboth := looks_append_idle hlooks hidle more'
  have hboth' := looks_append_idle hlooks' hidle' more
  rw [List.append_assoc, List.replicate_append_replicate] at hboth hboth'
  rw [Nat.add_comm, hboth] at hboth'
  exact Prod.mk.inj (Except.ok.inj hboth')

def taken (gap : Nanos → Nanos) (first : Nanos) (p : Pacer) : Nat → Pacer
  | 0 => p
  | i + 1 =>
    { p with lastTick := dueAt gap first i, deadline := some (dueAt gap first (i + 1)) }

theorem taken_succ (gap : Nanos → Nanos) (first : Nanos) (p : Pacer) (count : Nat) :
    p.taken gap first (count + 1) =
      { p with lastTick := first, deadline := some (first + gap first) }.taken gap
        (first + gap first) count := by
  cases count <;> rfl

theorem taken_deadline (h : p.deadline = some first) (count : Nat) :
    (p.taken gap first count).deadline = some (dueAt gap first count) := by
  cases count with
  | zero => exact h
  | succ i => rfl

theorem pollBy_waiting (hdue : p.deadline = some first) (hnow : now < first) :
    p.pollBy gap now = .ok none := by
  simp only [pollBy, hdue, if_pos hnow]

theorem pollBy_due (hdue : p.deadline = some first) (hnow : first ≤ now)
    (hfits : first + gap first < Nanos.limit) :
    p.pollBy gap now =
      .ok (some { p with lastTick := first, deadline := some (first + gap first) }) := by
  simp only [pollBy, hdue, if_neg (Nat.not_lt.mpr hnow), Nanos.plus, if_pos hfits]
  rfl

theorem looks_settles (hdue : p.deadline = some first) (hcount : CountsTo gap first last count)
    (hfits : ∀ i < count, dueAt gap first (i + 1) < Nanos.limit) (htimes : ∀ now ∈ times, now ≤ last)
    (hmany : count ≤ times.count last) :
    looks (pollBy gap) times p = .ok (count, p.taken gap first count) := by
  induction times generalizing p first count with
  | nil =>
    obtain rfl := Nat.le_zero.mp hmany
    rfl
  | cons now times ih =>
    obtain ⟨hnow, htimes⟩ := List.forall_mem_cons.mp htimes
    by_cases hwait : now < first
    · -- where this was a look at the end, nothing is due at all
      rw [looks_cons_none (pollBy_waiting hdue hwait)]
      refine ih hdue hcount hfits htimes ?_
      by_cases hend : now = last
      · rw [hcount.eq_zero (hend ▸ hwait)]
        exact Nat.zero_le _
      · rwa [List.count_cons_of_ne hend] at hmany
    · obtain ⟨rest, rfl, hrest⟩ := hcount.step ((Nat.not_lt.mp hwait).trans hnow)
      have hnext : first + gap first < Nanos.limit := hfits 0 (Nat.succ_pos rest)
      rw [looks_cons_some (pollBy_due hdue (Nat.not_lt.mp hwait) hnext), taken_succ]
      have hmore : rest ≤ times.count last := by
        rw [List.count_cons] at hmany
        split at hmany <;> omega
      rw [ih rfl hrest (fun i hi => hfits (i + 1) (Nat.succ_lt_succ hi)) htimes hmore]
      rfl

theorem looksOut_taken (hdue : p.deadline = some first) (hcount : CountsTo gap first last count)
    (hfits : ∀ i < count, dueAt gap first (i + 1) < Nanos.limit)
    (htimes : ∀ now ∈ times, now ≤ last) :
    LooksOut (pollBy gap) times last p count (p.taken gap first count) := by
  refine ⟨count, looks_settles hdue hcount hfits ?_ ?_, ?_⟩
  · intro now hnow
    rcases List.mem_append.mp hnow with hnow | hnow
    · exact htimes now hnow
    · exact Nat.le_of_eq (List.eq_of_mem_replicate hnow)
  · rw [List.count_append, List.count_replicate_self]
    exact Nat.le_add_left _ _
  · exact pollBy_waiting (taken_deadline hdue count) hcount.next

/-! The pacer's own looks. -/

def spacing (eased : Nanos → Nanos) (p : Pacer) (due : Nanos) : Nanos :=
  if p.pace = .normal then .ofMillis p.timing.tick else eased due

def easing (p : Pacer) (due : Nanos) : Nanos := p.timing.fastDuration (due - p.fastSince)

theorem tickDuration_eq_spacing (hgoing : p.pace ≠ .paused) (due : Nanos) :
    p.tickDuration due = some (p.spacing p.easing due) := by
  rw [tickDuration, spacing]
  cases hpace : p.pace with
  | normal => rfl
  | fastForward => rfl
  | paused => exact absurd hpace hgoing

theorem poll_eq_pollBy (h : ∀ due, p.tickDuration due = some (gap due)) (now : Nanos) :
    p.poll now = p.pollBy gap now := by
  rw [poll, pollBy]
  cases p.deadline with
  | none => rfl
  | some due => simp only [h]

theorem looks_poll (h : ∀ due, p.tickDuration due = some (gap due)) (times : List Nanos) :
    looks poll times p = looks (pollBy gap) times p := by
  induction times generalizing p with
  | nil => rfl
  | cons now times ih =>
    have hlook := poll_eq_pollBy h now
    cases hpoll : p.poll now with
    | error e =>
      rw [hpoll] at hlook
      rw [looks, looks, hpoll, ← hlook]
      rfl
    | ok next =>
      cases next with
      | none => rw [looks_cons_none hpoll, looks_cons_none (hlook.symm.trans hpoll), ih h]
      | some next =>
        have hnext : ∀ due, next.tickDuration due = some (gap due) := by
          cases polled hpoll
          exact h
        rw [looks_cons_some hpoll, looks_cons_some (hlook.symm.trans hpoll), ih hnext]

theorem poll_eq_none_iff : p.poll now = .ok none ↔ ∀ due, p.deadline = some due → now < due := by
  constructor
  · intro h
    cases polled h with
    | waiting hwait => exact hwait
  · intro h
    rw [poll]
    cases hdue : p.deadline with
    | none => rfl
    | some due => exact if_pos (h due hdue)

theorem pollBy_eq_none_iff :
    p.pollBy gap now = .ok none ↔ ∀ due, p.deadline = some due → now < due := by
  rw [pollBy]
  cases p.deadline with
  | none => simp
  | some due =>
    by_cases hnow : now < due
    · simp [hnow]
    · cases hplus : due.plus (gap due) <;>
        simp [hnow, hplus, bind, Except.bind, pure, Except.pure]

theorem looksOut_poll_iff (hgoing : p.pace ≠ .paused) {after : Pacer} :
    LooksOut poll times last p count after ↔
      LooksOut (pollBy (p.spacing p.easing)) times last p count after := by
  simp only [LooksOut, looks_poll (tickDuration_eq_spacing hgoing), poll_eq_none_iff,
    pollBy_eq_none_iff]

theorem exists_settled (hgap : ∀ due, 0 < gap due)
    (hfits : ∀ first, p.deadline = some first → ∀ i, dueAt gap first i ≤ last →
      dueAt gap first (i + 1) < Nanos.limit) :
    ∃ count after,
      (∀ first, p.deadline = some first →
        CountsTo gap first last count ∧ after = p.taken gap first count) ∧
      ∀ times, (∀ now ∈ times, now ≤ last) → LooksOut (pollBy gap) times last p count after := by
  cases hdue : p.deadline with
  | none =>
    have hidle : ∀ now, p.pollBy gap now = .ok none := by
      intro now
      rw [pollBy_eq_none_iff, hdue]
      exact fun due h => absurd h.symm (Option.some_ne_none due)
    refine ⟨0, p, fun first h => absurd h.symm (Option.some_ne_none first), fun times _ => ?_⟩
    exact ⟨0, looks_idle fun now _ => hidle now, hidle last⟩
  | some first =>
    obtain ⟨count, hcount⟩ := exists_countsTo hgap first last
    refine ⟨count, p.taken gap first count, ?_, ?_⟩
    · rintro _ ⟨⟩
      exact ⟨hcount, rfl⟩
    · intro times htimes
      exact looksOut_taken hdue hcount (fun i hi => hfits first hdue i (hcount.due i hi)) htimes

/-- The schedule of a pacer does not depend on when it is looked at. Whatever the ticks of a fast
forward last, as long as they last, looks at any times up to `last`, and at the end until nothing is
due, take the same number of ticks and leave the same pacer; and at normal pace both have a closed
form. -/
theorem schedule_free_of_looks (p : Pacer) (eased : Nanos → Nanos) (last : Nanos)
    (hgoing : p.pace ≠ .paused) (hlasting : ∀ due, 0 < p.spacing eased due)
    (hfits : ∀ first, p.deadline = some first → ∀ i, dueAt (p.spacing eased) first i ≤ last →
      dueAt (p.spacing eased) first (i + 1) < Nanos.limit) :
    (∀ times n q, LooksOut poll times last p n q ↔
      LooksOut (pollBy (p.spacing p.easing)) times last p n q) ∧
    ∃ count after,
      (∀ times, (∀ now ∈ times, now ≤ last) → ∀ n q,
        LooksOut (pollBy (p.spacing eased)) times last p n q ↔ n = count ∧ q = after) ∧
      ∀ first, p.deadline = some first →
        after = p.taken (p.spacing eased) first count ∧
        CountsTo (p.spacing eased) first last count ∧
        (p.pace = .normal →
          (last < first → count = 0) ∧
          (first ≤ last → count = (last - first) / Nanos.ofMillis p.timing.tick + 1) ∧
          after.deadline = some (first + count * Nanos.ofMillis p.timing.tick) ∧
          last < first + count * Nanos.ofMillis p.timing.tick) := by
  refine ⟨fun times n q => looksOut_poll_iff hgoing, ?_⟩
  obtain ⟨count, after, hafter, hlooks⟩ := exists_settled hlasting hfits
  refine ⟨count, after, ?_, ?_⟩
  · intro times htimes n q
    constructor
    · exact fun h => h.unique (hlooks times htimes)
    · rintro ⟨rfl, rfl⟩
      exact hlooks times htimes
  · intro first hdue
    obtain ⟨hcount, rfl⟩ := hafter first hdue
    refine ⟨rfl, hcount, fun hpace => ?_⟩
    have hspacing : p.spacing eased = fun _ => Nanos.ofMillis p.timing.tick :=
      funext fun due => if_pos hpace
    rw [hspacing] at hcount ⊢
    have hnext := hcount.next
    rw [dueAt_const] at hnext
    refine ⟨hcount.eq_zero, hcount.eq_div, ?_, hnext⟩
    rw [taken_deadline hdue, dueAt_const]

theorem schedule_free_of_looks_fresh :
    Session.fresh.pacer.pace ≠ .paused ∧
      LooksOut poll [.ofMillis 100, .ofMillis 950, .ofMillis 950] (.ofMillis 2100)
        Session.fresh.pacer 5
        { Session.fresh.pacer with
          lastTick := .ofMillis 2000, deadline := some (.ofMillis 2400) } ∧
      LooksOut poll [] (.ofMillis 2100) Session.fresh.pacer 5
        { Session.fresh.pacer with
          lastTick := .ofMillis 2000, deadline := some (.ofMillis 2400) } := by
  have hgoing : Session.fresh.pacer.pace ≠ .paused := Pace.noConfusion
  have hspacing : ∀ due, Session.fresh.pacer.spacing Session.fresh.pacer.easing due =
      Nanos.ofMillis 400 := fun _ => if_pos rfl
  have hlasting : ∀ due, 0 < Session.fresh.pacer.spacing Session.fresh.pacer.easing due := by
    intro due
    rw [hspacing]
    decide
  have hfits : ∀ first, Session.fresh.pacer.deadline = some first → ∀ i,
      dueAt (Session.fresh.pacer.spacing Session.fresh.pacer.easing) first i ≤ .ofMillis 2100 →
      dueAt (Session.fresh.pacer.spacing Session.fresh.pacer.easing) first (i + 1) <
        Nanos.limit := by
    intro first _ i hi
    rw [dueAt_succ, hspacing]
    have hsum : Nanos.ofMillis 2100 + Nanos.ofMillis 400 < Nanos.limit := by decide
    exact Nat.lt_of_le_of_lt (Nat.add_le_add_right hi _) hsum
  obtain ⟨hown, count, after, hlooks, hclosed⟩ := schedule_free_of_looks Session.fresh.pacer
    Session.fresh.pacer.easing (.ofMillis 2100) hgoing hlasting hfits
  obtain ⟨hafter, -, hnormal⟩ := hclosed (.ofMillis 400) rfl
  obtain rfl : count = 5 := (hnormal rfl).2.1 (by decide)
  refine ⟨hgoing, ?_, ?_⟩
  · rw [hown, hlooks _ (by decide), hafter]
    exact ⟨rfl, rfl⟩
  · rw [hown, hlooks _ (by decide), hafter]
    exact ⟨rfl, rfl⟩

end Pacer
end Lockstep

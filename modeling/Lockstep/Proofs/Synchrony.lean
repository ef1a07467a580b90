import Lockstep.Proofs.NodeStep
import Lockstep.Simulation.Exchange

/-!
The nodes of a tick seen all at once. A node meets the others of its tick only in what is put out,
so whether a tick fails, and what it leaves when it does not, can be said without the order in which
the nodes take their steps: `Agree` is that condition, and `heard` adds up what they ask for.
-/
namespace Lockstep

def Offer.value (offer : Offer) : Int := offer.input.getD 0

namespace Node
variable {σ : Type}

theorem step_failed {t : Terminal σ} {ch : Channels} {n : Node} {s : σ} {fault : RuntimeFault}
    (h : (n.step t ch s).1 = .failed fault) :
    (n.step t ch s).2.1 = n.fail n.lineAt fault := by
  unfold step at h ⊢
  split_ifs at h ⊢
  cases hp : n.program[n.pc]? with
  | none => simp [hp] at h
  | some i =>
    simp only [hp] at h ⊢
    have hl : n.lineAt = i.line := by simp [lineAt, nextLine?, hp]
    generalize n.execute t ch i s = e at h ⊢
    rcases e with ⟨_ | ⟨m, _ | d⟩, s'⟩
    · cases h
      rw [hl]
    · cases h
    · cases h

end Node

namespace Exchange

theorem terminal_steady (offer : Offer) (slot : UInt8) :
    (terminal offer slot).Steady offer.value := by
  constructor
  · intro x
    simp only [terminal, read, Offer.value]
    cases offer.input <;> rfl
  · intro x
    simp only [terminal, read]
    cases offer.input <;> rfl

def Takes (offer : Offer) (x : Exchange) (v : Int) : Prop :=
  match x.written with
  | some taken => taken = v
  | none => x.output.size < offer.limit

/-- The exchange after a request that was granted, the events apart. -/
def heard (offer : Offer) (q : Request) (x : Exchange) : Exchange :=
  { x with
    output :=
      match x.written, q.offers with
      | none, some v => x.output.push v
      | _, _ => x.output
    written := x.written <|> q.offers
    consumed := x.consumed || (q.reads && offer.input.isSome) }

def SameBooks (x y : Exchange) : Prop :=
  x.output = y.output ∧ x.written = y.written ∧ x.consumed = y.consumed

theorem read_books (offer : Offer) (slot : UInt8) (x : Exchange) (reads : Bool) :
    (if reads then ((terminal offer slot).read x).2 else x) =
      { x with consumed := x.consumed || (reads && offer.input.isSome) } := by
  cases reads with
  | false => simp
  | true =>
    simp only [terminal, read, if_true, Bool.true_and]
    cases offer.input <;> simp

theorem accept_books (offer : Offer) (slot : UInt8) (v : Int) (x : Exchange) :
    SameBooks (x.accept offer slot v) { x with output := x.output.push v, written := some v } := by
  simp only [accept]
  split_ifs <;> exact ⟨rfl, rfl, rfl⟩

theorem write_granted {offer : Offer} {x : Exchange} {v : Int} (slot : UInt8)
    (hv : clamp v = v) (h : x.Takes offer v) :
    ∃ x', x.write offer slot v = (.ok (), x') ∧ SameBooks x' (x.heard offer { offers := some v }) := by
  unfold Takes at h
  unfold write
  cases hw : x.written with
  | some taken =>
    simp only [hw] at h
    subst h
    refine ⟨x, if_pos rfl, ?_, ?_, ?_⟩ <;> simp [heard, hw]
  | none =>
    simp only [hw] at h
    obtain ⟨ho, hw', hc⟩ := accept_books offer slot v x
    refine ⟨_, if_pos h, ?_, ?_, ?_⟩
    · simp only [hv, ho, heard, hw]
    · simp only [hv, hw', heard, hw]; rfl
    · simp [hv, hc, heard]

theorem write_refused {offer : Offer} {x : Exchange} {v : Int} (slot : UInt8)
    (h : ¬ x.Takes offer v) : ∃ reason, x.write offer slot v = (.error reason, x) := by
  unfold Takes at h
  unfold write
  cases hw : x.written with
  | some taken =>
    simp only [hw] at h
    exact ⟨_, if_neg h⟩
  | none =>
    simp only [hw] at h
    exact ⟨_, if_neg h⟩

theorem reply_granted {offer : Offer} (slot : UInt8) {q : Request} {x : Exchange}
    (hclamp : ∀ v, q.offers = some v → clamp v = v)
    (htakes : ∀ v, q.offers = some v → x.Takes offer v) :
    ∃ x', q.reply (terminal offer slot) x = (.ok (), x') ∧ SameBooks x' (x.heard offer q) := by
  unfold Request.reply
  rw [read_books]
  cases hq : q.offers with
  | none =>
    refine ⟨_, rfl, ?_, ?_, rfl⟩
    · simp only [heard, hq]
      cases x.written <;> rfl
    · simp [heard, hq]
  | some v =>
    obtain ⟨x', hx, ho, hw, hc⟩ := write_granted
      (x := { x with consumed := x.consumed || (q.reads && offer.input.isSome) }) slot
      (hclamp v hq) (htakes v hq)
    refine ⟨x', hx, ?_, ?_, ?_⟩
    · simp only [ho, heard, hq]
    · simp only [hw, heard, hq]
    · simp only [hc, heard, Bool.false_and, Bool.or_false]

theorem reply_refused {offer : Offer} (slot : UInt8) {q : Request} {x : Exchange} {v : Int}
    (hq : q.offers = some v) (h : ¬ x.Takes offer v) :
    ∃ reason x', q.reply (terminal offer slot) x = (.error reason, x') := by
  unfold Request.reply
  rw [read_books, hq]
  obtain ⟨reason, hx⟩ := write_refused
    (x := { x with consumed := x.consumed || (q.reads && offer.input.isSome) }) slot h
  exact ⟨reason, _, hx⟩

/-- What every read, every value taken and every note of a stored accumulator keeps, a tick keeps. -/
structure Kept (offer : Offer) (P : Exchange → Prop) : Prop where
  read : ∀ x, offer.input.isSome → P x → P { x with consumed := true }
  accWritten : ∀ x slot v, P x → P (x.record (.accWritten slot v))
  accept : ∀ x slot v, x.written = none → x.output.size < offer.limit → P x →
    P (x.accept offer slot (clamp v))

theorem Kept.write {offer : Offer} {P : Exchange → Prop} (h : Kept offer P) (slot : UInt8)
    (v : Int) {x : Exchange} (hx : P x) : P (x.write offer slot v).2 := by
  unfold Exchange.write
  split
  · split_ifs <;> exact hx
  · rename_i hw
    split_ifs with hl
    · exact h.accept x slot v hw hl hx
    · exact hx

theorem Kept.reply {offer : Offer} {P : Exchange → Prop} (h : Kept offer P) (slot : UInt8)
    (q : Request) {x : Exchange} (hx : P x) : P (q.reply (terminal offer slot) x).2 := by
  have hr : P (if q.reads then ((terminal offer slot).read x).2 else x) := by
    split_ifs
    · simp only [terminal, Exchange.read]
      split
      · rename_i hinput
        exact h.read x (hinput ▸ rfl) hx
      · exact hx
    · exact hx
  unfold Request.reply
  split
  · exact hr
  · exact h.write slot _ hr

theorem Kept.stepNode {offer : Offer} {P : Exchange → Prop} (h : Kept offer P) (ch : Channels)
    (n : Node) {x : Exchange} (hx : P x) : P (stepNode offer ch n x).2.1 := by
  have hr := h.reply n.slot (n.ask offer.value ch).2.2 hx
  unfold Exchange.stepNode
  rw [Node.step_eq_ask (terminal_steady offer n.slot)]
  generalize (n.ask offer.value ch).2.2.reply (terminal offer n.slot) x = r at hr
  obtain ⟨_ | _, x'⟩ := r
  · simp only
    split_ifs
    · exact h.accWritten _ _ _ hr
    · exact hr
  · simp only
    split_ifs
    · exact h.accWritten _ _ _ hr
    · exact hr

theorem Kept.stepNodes {offer : Offer} {P : Exchange → Prop} (h : Kept offer P) (ch : Channels)
    (ns : List Node) {x : Exchange} (hx : P x) : P (stepNodes offer ch ns x).2.1 := by
  induction ns generalizing x with
  | nil => exact hx
  | cons n ns ih => exact ih (h.stepNode ch n hx)

structure Granted (offer : Offer) (ch : Channels) (x : Exchange) (n : Node) : Prop where
  sound : ∀ fault, (n.ask offer.value ch).1 ≠ .failed fault
  taken : ∀ v, (n.ask offer.value ch).2.2.offers = some v → x.Takes offer v

theorem stepNode_granted {offer : Offer} {ch : Channels} {x : Exchange} {n : Node}
    (h : x.Granted offer ch n) :
    ∃ x', stepNode offer ch n x = ((n.ask offer.value ch).2.1.clearAccWritten, x', none) ∧
      SameBooks x' (x.heard offer (n.ask offer.value ch).2.2) := by
  obtain ⟨x', hx, hb⟩ := reply_granted n.slot
    (fun v hv => (Node.ask_offers hv).2.2) h.taken
  unfold stepNode
  rw [Node.step_eq_ask (terminal_steady offer n.slot), hx]
  have hf := h.sound
  generalize (n.ask offer.value ch).1 = r at hf
  generalize (n.ask offer.value ch).2.1 = m
  refine ⟨if m.accWritten then x'.record (.accWritten m.slot m.acc) else x', ?_, ?_⟩
  · cases r <;> simp_all
  · split_ifs <;> exact hb

theorem stepNode_not_granted {offer : Offer} {ch : Channels} {x : Exchange} {n : Node}
    (h : ¬ x.Granted offer ch n) : (stepNode offer ch n x).2.2 ≠ none := by
  unfold stepNode
  rw [Node.step_eq_ask (terminal_steady offer n.slot)]
  by_cases ht : ∀ v, (n.ask offer.value ch).2.2.offers = some v → x.Takes offer v
  · obtain ⟨x', hx, -⟩ := reply_granted n.slot
      (fun v hv => (Node.ask_offers hv).2.2) ht
    obtain ⟨fault, hf⟩ : ∃ fault, (n.ask offer.value ch).1 = .failed fault := by
      by_contra hn
      exact h ⟨fun fault hf => hn ⟨fault, hf⟩, ht⟩
    have hm : (n.ask offer.value ch).2.1 = n.fail n.lineAt fault := Node.step_failed hf
    rw [hx, hf, hm]
    simp [Node.fail]
  · obtain ⟨v, hv⟩ := not_forall.mp ht
    obtain ⟨hv, hn⟩ := Classical.not_imp.mp hv
    obtain ⟨reason, x', hx⟩ := reply_refused n.slot hv hn
    rw [hx]
    simp [Node.fail]

/-- All nodes get through the tick: none fails by itself, and what they put out is one value that
the output takes. -/
structure Agree (offer : Offer) (ch : Channels) (x : Exchange) (ns : List Node) : Prop where
  granted : ∀ n ∈ ns, x.Granted offer ch n
  same : ∀ n ∈ ns, ∀ m ∈ ns, ∀ v w, (n.ask offer.value ch).2.2.offers = some v →
    (m.ask offer.value ch).2.2.offers = some w → v = w

theorem SameBooks.takes_iff {offer : Offer} {x x' : Exchange} {q : Request} {w : Int}
    (hb : SameBooks x' (x.heard offer q)) (hq : ∀ v, q.offers = some v → x.Takes offer v) :
    x'.Takes offer w ↔ x.Takes offer w ∧ ∀ v, q.offers = some v → v = w := by
  obtain ⟨ho, hw, -⟩ := hb
  unfold Takes
  rw [ho, hw]
  unfold Takes at hq
  cases hx : x.written with
  | some taken =>
    simp only [hx] at hq
    simp only [heard, hx]
    constructor
    · intro h
      exact ⟨h, fun v hv => (hq v hv).symm.trans h⟩
    · exact fun h => h.1
  | none =>
    simp only [hx] at hq
    cases hv : q.offers with
    | none => simp [heard, hx, hv]
    | some v =>
      simp only [heard, hx, hv]
      constructor
      · intro h
        exact ⟨hq v hv, fun u hu => (Option.some.inj hu).symm.trans h⟩
      · exact fun h => h.2 v rfl

theorem agree_cons_iff {offer : Offer} {ch : Channels} {x x' : Exchange} {n : Node}
    {ns : List Node} (hn : x.Granted offer ch n)
    (hb : SameBooks x' (x.heard offer (n.ask offer.value ch).2.2)) :
    x.Agree offer ch (n :: ns) ↔ x'.Agree offer ch ns := by
  have htakes : ∀ w, x'.Takes offer w ↔ x.Takes offer w ∧
      ∀ v, (n.ask offer.value ch).2.2.offers = some v → v = w :=
    fun w => hb.takes_iff hn.taken
  constructor
  · intro h
    refine ⟨fun m hm => ⟨(h.granted m (.tail _ hm)).sound, fun w hw => ?_⟩,
      fun a ha b hb => h.same a (.tail _ ha) b (.tail _ hb)⟩
    exact (htakes w).mpr ⟨(h.granted m (.tail _ hm)).taken w hw,
      fun v hv => h.same n (.head _) m (.tail _ hm) v w hv hw⟩
  · intro h
    have hrest : ∀ m ∈ ns, x.Granted offer ch m ∧ ∀ v w,
        (n.ask offer.value ch).2.2.offers = some v →
        (m.ask offer.value ch).2.2.offers = some w → v = w := by
      intro m hm
      have hg := h.granted m hm
      exact ⟨⟨hg.sound, fun w hw => ((htakes w).mp (hg.taken w hw)).1⟩,
        fun v w hv hw => ((htakes w).mp (hg.taken w hw)).2 v hv⟩
    refine ⟨fun m hm => ?_, fun a ha b hb v w hv hw => ?_⟩
    · rcases List.mem_cons.mp hm with rfl | hm
      · exact hn
      · exact (hrest m hm).1
    · rcases List.mem_cons.mp ha with rfl | has
      · rcases List.mem_cons.mp hb with rfl | hbs
        · exact Option.some.inj (hv.symm.trans hw)
        · exact (hrest b hbs).2 v w hv hw
      · rcases List.mem_cons.mp hb with rfl | hbs
        · exact ((hrest a has).2 w v hw hv).symm
        · exact h.same a has b hbs v w hv hw

def heardAll (offer : Offer) (ch : Channels) (ns : List Node) (x : Exchange) : Exchange :=
  ns.foldl (fun y n => y.heard offer (n.ask offer.value ch).2.2) x

theorem SameBooks.heard {x y : Exchange} (h : SameBooks x y) (offer : Offer) (q : Request) :
    SameBooks (x.heard offer q) (y.heard offer q) := by
  obtain ⟨ho, hw, hc⟩ := h
  exact ⟨by simp only [Exchange.heard, ho, hw], by simp only [Exchange.heard, hw],
    by simp only [Exchange.heard, hc]⟩

theorem SameBooks.trans {x y z : Exchange} (h : SameBooks x y) (k : SameBooks y z) :
    SameBooks x z :=
  ⟨h.1.trans k.1, h.2.1.trans k.2.1, h.2.2.trans k.2.2⟩

theorem SameBooks.heardAll {x y : Exchange} (h : SameBooks x y) (offer : Offer) (ch : Channels)
    (ns : List Node) : SameBooks (x.heardAll offer ch ns) (y.heardAll offer ch ns) := by
  induction ns generalizing x y with
  | nil => exact h
  | cons n ns ih => exact ih (h.heard offer _)

theorem stepNodes_agree {offer : Offer} {ch : Channels} {ns : List Node} {x : Exchange}
    (h : x.Agree offer ch ns) :
    ∃ x', stepNodes offer ch ns x =
        (ns.map fun n => (n.ask offer.value ch).2.1.clearAccWritten, x', none) ∧
      SameBooks x' (x.heardAll offer ch ns) := by
  induction ns generalizing x with
  | nil => exact ⟨x, rfl, rfl, rfl, rfl⟩
  | cons n ns ih =>
    have hn := h.granted n (.head _)
    obtain ⟨x₁, h₁, hb₁⟩ := stepNode_granted hn
    obtain ⟨x₂, h₂, hb₂⟩ := ih ((agree_cons_iff hn hb₁).mp h)
    refine ⟨x₂, ?_, hb₂.trans (hb₁.heardAll offer ch ns)⟩
    simp only [stepNodes, h₁, h₂, List.map_cons]
    rfl

theorem stepNodes_not_agree {offer : Offer} {ch : Channels} {ns : List Node} {x : Exchange}
    (h : ¬ x.Agree offer ch ns) : (stepNodes offer ch ns x).2.2 ≠ none := by
  induction ns generalizing x with
  | nil => exact absurd ⟨fun n hn => absurd hn List.not_mem_nil,
      fun n hn => absurd hn List.not_mem_nil⟩ h
  | cons n ns ih =>
    by_cases hn : x.Granted offer ch n
    · obtain ⟨x₁, h₁, hb₁⟩ := stepNode_granted hn
      have hrest := ih (fun hr => h ((agree_cons_iff hn hb₁).mpr hr))
      simp only [stepNodes, h₁]
      generalize stepNodes offer ch ns x₁ = r at hrest
      obtain ⟨ms, y, f⟩ := r
      simpa using hrest
    · have hf := stepNode_not_granted hn
      simp only [stepNodes]
      generalize stepNode offer ch n x = r at hf
      obtain ⟨m, y, f⟩ := r
      cases f with
      | none => exact absurd rfl hf
      | some e => simp

end Exchange
end Lockstep

import Lockstep.Proofs.RunState
import Lockstep.Proofs.StepOrder

/-!
A tick as a simultaneous step. The nodes of a tick take their steps one after the other and share
the input and the output, but each of them does what it would do alone, on its own old state and the
old channel values, if the first value put out in the order of slots were known beforehand. `part`
is that step of one node and `inStep` the simulation made of all of them; a tick is `inStep` and
then what follows from it for the run.
-/
namespace Lockstep

def Event.isRuntimeError : Event → Bool
  | runtimeError _ _ _ => true
  | _ => false

/-- Gives `input` to every read and lets `rule` decide on every value; its state is whether anything
was read. -/
def Terminal.ruled (input : Int) (rule : Int → Except String Unit) : Terminal Bool :=
  ⟨fun _ => (input, true), fun v read => (rule v, read)⟩

theorem Terminal.ruled_steady (input : Int) (rule : Int → Except String Unit) :
    (ruled input rule).Steady input :=
  ⟨fun _ => rfl, fun _ => rfl⟩

theorem Request.reply_ruled (q : Request) (input : Int) (rule : Int → Except String Unit) :
    q.reply (.ruled input rule) false = (q.offers.elim (.ok ()) rule, q.reads) := by
  have hread : (if q.reads then true else false) = q.reads := by cases q.reads <;> rfl
  cases hq : q.offers with
  | none => simp only [reply, hq, Terminal.ruled, hread, Option.elim]
  | some v => simp only [reply, hq, Terminal.ruled, hread, Option.elim]

namespace Exchange
variable {offer : Offer} {ch : Channels} {ns : List Node} {n : Node} {x y : Exchange}

def answer (offer : Offer) (x : Exchange) (v : Int) : Except String Unit :=
  match x.written with
  | some taken => if taken = v then .ok () else .error Refusal.collision.message
  | none => if x.output.size < offer.limit then .ok () else .error Refusal.overflow.message

def booked (offer : Offer) (q : Request) (x : Exchange) : Exchange :=
  let taken := if x.written = none ∧ x.output.size < offer.limit then q.offers else none
  { x with
    output := x.output ++ taken.toArray
    written := x.written <|> taken
    consumed := x.consumed || (q.reads && offer.input.isSome) }

theorem write_answer (slot : UInt8) (v : Int) (x : Exchange) :
    (x.write offer slot v).1 = x.answer offer v := by
  unfold write answer
  cases x.written with
  | some taken =>
    simp only
    split_ifs <;> rfl
  | none =>
    simp only
    split_ifs <;> rfl

theorem write_booked (offer : Offer) (slot : UInt8) {v : Int} (hv : clamp v = v) (x : Exchange) :
    SameBooks (x.write offer slot v).2 (x.booked offer { offers := some v }) := by
  unfold write
  cases hw : x.written with
  | some taken =>
    have hkeep : SameBooks x (x.booked offer { offers := some v }) :=
      ⟨by simp [booked, hw], by simp [booked, hw], by simp [booked]⟩
    simp only
    split_ifs <;> exact hkeep
  | none =>
    simp only
    split_ifs with hroom
    · obtain ⟨ho, ht, hc⟩ := accept_books offer slot (clamp v) x
      rw [hv] at ho ht hc
      exact ⟨by simp [hv, ho, booked, hw, hroom], by simp [hv, ht, booked, hw, hroom],
        by simp [hv, hc, booked]⟩
    · exact ⟨by simp [booked, hw, hroom], by simp [booked, hw, hroom], by simp [booked]⟩

theorem reply_booked (offer : Offer) (slot : UInt8) {q : Request}
    (hclamp : ∀ v, q.offers = some v → clamp v = v) (x : Exchange) :
    ∃ x', q.reply (terminal offer slot) x = (q.offers.elim (.ok ()) (x.answer offer), x') ∧
      SameBooks x' (x.booked offer q) := by
  refine ⟨(q.reply (terminal offer slot) x).2, ?_⟩
  unfold Request.reply
  rw [read_books]
  obtain ⟨reads, offers⟩ := q
  cases offers with
  | none => exact ⟨rfl, by simp [booked], by simp [booked], rfl⟩
  | some v =>
    have hw := write_booked offer slot (hclamp v rfl)
      { x with consumed := x.consumed || (reads && offer.input.isSome) }
    refine ⟨Prod.ext (write_answer slot v _) rfl, hw.trans ⟨rfl, rfl, ?_⟩⟩
    simp [booked]

/-! What is known of a tick while some of its nodes, `ns`, are still to come. -/

def firstOf (offer : Offer) (ch : Channels) (ns : List Node) : Option Int :=
  ns.findSome? fun n => n.putsOut offer.value ch

/-- What is decided on every value put out from now on. -/
def rule (offer : Offer) (ch : Channels) (ns : List Node) (x : Exchange) (v : Int) :
    Except String Unit :=
  match x.written with
  | some taken => if taken = v then .ok () else .error Refusal.collision.message
  | none =>
    if x.output.size < offer.limit then
      if firstOf offer ch ns = some v then .ok () else .error Refusal.collision.message
    else .error Refusal.overflow.message

def complete (offer : Offer) (ch : Channels) (ns : List Node) (x : Exchange) : Array Int :=
  if x.written = none ∧ x.output.size < offer.limit then
    x.output ++ (firstOf offer ch ns).toArray
  else x.output

def partOf (offer : Offer) (ch : Channels) (rule : Int → Except String Unit) (n : Node) :
    StepResult × Node × Bool :=
  n.step (.ruled offer.value rule) ch false

def failureOf (p : StepResult × Node × Bool) : Option (UInt8 × NodeError) :=
  match p.1 with
  | .failed _ => p.2.1.error.map fun e => (p.2.1.slot, e)
  | _ => none

theorem firstOf_cons (n : Node) (ns : List Node) :
    firstOf offer ch (n :: ns) = ((n.putsOut offer.value ch) <|> firstOf offer ch ns) := by
  rw [firstOf, List.findSome?_cons]
  cases n.putsOut offer.value ch <;> rfl

theorem rule_next {v : Int} (hv : n.putsOut offer.value ch = some v) :
    rule offer ch (n :: ns) x v = x.answer offer v := by
  rw [rule, answer, firstOf_cons, hv]
  cases x.written with
  | some taken => rfl
  | none => simp

theorem rule_booked (hb : SameBooks y (x.booked offer (n.ask offer.value ch).2.2)) :
    rule offer ch ns y = rule offer ch (n :: ns) x := by
  obtain ⟨ho, hw, -⟩ := hb
  have hput : (n.ask offer.value ch).2.2.offers = n.putsOut offer.value ch := rfl
  funext w
  rw [rule, rule, ho, hw, firstOf_cons]
  simp only [booked, hput]
  cases hx : x.written with
  | some taken => simp
  | none =>
    by_cases hroom : x.output.size < offer.limit
    · cases n.putsOut offer.value ch with
      | none => simp [hroom]
      | some v => simp [hroom]
    · simp [hroom]

theorem complete_booked (hb : SameBooks y (x.booked offer (n.ask offer.value ch).2.2)) :
    complete offer ch ns y = complete offer ch (n :: ns) x := by
  obtain ⟨ho, hw, -⟩ := hb
  have hput : (n.ask offer.value ch).2.2.offers = n.putsOut offer.value ch := rfl
  rw [complete, complete, ho, hw, firstOf_cons]
  simp only [booked, hput]
  cases hx : x.written with
  | some taken => simp
  | none =>
    by_cases hroom : x.output.size < offer.limit
    · cases n.putsOut offer.value ch with
      | none => simp [hroom]
      | some v => simp [hroom]
    · simp [hroom]

theorem stepNode_part (offer : Offer) (ch : Channels) (n : Node) (ns : List Node) (x : Exchange) :
    ∃ y, stepNode offer ch n x =
        ((partOf offer ch (rule offer ch (n :: ns) x) n).2.1.clearAccWritten, y,
          failureOf (partOf offer ch (rule offer ch (n :: ns) x) n)) ∧
      SameBooks y (x.booked offer (n.ask offer.value ch).2.2) ∧
      (partOf offer ch (rule offer ch (n :: ns) x) n).2.2 = (n.ask offer.value ch).2.2.reads := by
  have hclamp : ∀ v, (n.ask offer.value ch).2.2.offers = some v → clamp v = v :=
    fun v hv => (Node.ask_offers hv).2.2
  obtain ⟨x', hx, hb⟩ := reply_booked offer n.slot hclamp x
  have hsame : (n.ask offer.value ch).2.2.offers.elim (.ok ()) (rule offer ch (n :: ns) x) =
      (n.ask offer.value ch).2.2.offers.elim (.ok ()) (x.answer offer) := by
    cases hq : (n.ask offer.value ch).2.2.offers with
    | none => rfl
    | some v => exact rule_next hq
  unfold stepNode partOf
  rw [Node.step_eq_ask (terminal_steady offer n.slot), hx,
    Node.step_eq_ask (Terminal.ruled_steady offer.value _), Request.reply_ruled, hsame]
  generalize (n.ask offer.value ch).2.2.offers.elim (.ok ()) (x.answer offer) = reply
  cases reply with
  | ok u =>
    refine ⟨_, rfl, ?_, rfl⟩
    split_ifs <;> exact hb
  | error reason =>
    refine ⟨_, rfl, ?_, rfl⟩
    split_ifs <;> exact hb

theorem stepNodes_parts (offer : Offer) (ch : Channels) (ns : List Node) (x : Exchange) :
    (stepNodes offer ch ns x).1 =
      ns.map (fun n => (partOf offer ch (rule offer ch ns x) n).2.1.clearAccWritten) ∧
    (stepNodes offer ch ns x).2.1.output = complete offer ch ns x ∧
    (stepNodes offer ch ns x).2.1.consumed = (x.consumed ||
      ((ns.any fun n => (partOf offer ch (rule offer ch ns x) n).2.2) && offer.input.isSome)) ∧
    (stepNodes offer ch ns x).2.2 =
      ns.findSome? fun n => failureOf (partOf offer ch (rule offer ch ns x) n) := by
  induction ns generalizing x with
  | nil =>
    refine ⟨rfl, ?_, ?_, rfl⟩
    · simp [stepNodes, complete, firstOf]
    · simp [stepNodes]
  | cons n ns ih =>
    obtain ⟨y, hstep, hb, hreads⟩ := stepNode_part offer ch n ns x
    obtain ⟨hnodes, houtput, hconsumed, hfailure⟩ := ih y
    -- the rule is the same for the nodes that come later
    rw [rule_booked hb] at hnodes hconsumed hfailure
    simp only [stepNodes, hstep]
    refine ⟨?_, ?_, ?_, ?_⟩
    · rw [hnodes, List.map_cons]
    · rw [houtput, complete_booked hb]
    · rw [hconsumed, hb.2.2, List.any_cons, hreads]
      simp only [booked, Bool.or_assoc, Bool.and_or_distrib_right]
    · rw [hfailure, List.findSome?_cons]
      cases failureOf (partOf offer ch (rule offer ch (n :: ns) x) n) <;> rfl

end Exchange

namespace Simulation
variable {sim : Simulation}

/-! The specification. Every definition speaks of the simulation before the tick only. -/

def nextInput (sim : Simulation) : Int := sim.currentSet.input[sim.cursor]?.getD 0

def firstOutput (sim : Simulation) : Option Int := sim.nodes.findSome? sim.putsOut

def verdict (sim : Simulation) (v : Int) : Except String Unit :=
  if sim.settings.outputLimit ≤ sim.output.size then .error "Output overflow"
  else if sim.firstOutput = some v then .ok ()
  else .error "Output collision"

/-- The step of a node on its own old state and the old channel values, with whether it read the
input. -/
def part (sim : Simulation) (n : Node) : StepResult × Node × Bool :=
  n.step (.ruled sim.nextInput sim.verdict) sim.channels false

def Fails (sim : Simulation) (n : Node) : Prop := ∃ fault, (sim.part n).1 = .failed fault

def nextOutput (sim : Simulation) : Array Int :=
  match sim.firstOutput with
  | some v =>
    if sim.settings.outputLimit ≤ sim.output.size then sim.output else sim.output.push v
  | none => sim.output

def nextNodes (sim : Simulation) : List Node :=
  sim.nodes.map fun n => (sim.part n).2.1.clearAccWritten

def inStep (sim : Simulation) : Simulation :=
  { sim with
    ticks := sim.ticks + 1
    nodes := sim.nextNodes
    channels := mixChannels sim.nextNodes
    output := sim.nextOutput
    cursor :=
      if sim.cursor < sim.currentSet.input.size ∧ ∃ n ∈ sim.nodes, (sim.part n).2.2 = true then
        sim.cursor + 1
      else sim.cursor }

/-! The tick that runs is the one specified. -/

theorem rule_eq_verdict (sim : Simulation) :
    Exchange.rule sim.offer sim.channels sim.nodes { output := sim.output } = sim.verdict := by
  funext v
  have hlimit : sim.offer.limit = sim.settings.outputLimit := rfl
  have hfirst : Exchange.firstOf sim.offer sim.channels sim.nodes = sim.firstOutput := rfl
  simp only [Exchange.rule, verdict, hlimit, hfirst]
  by_cases hroom : sim.output.size < sim.settings.outputLimit
  · rw [if_pos hroom, if_neg (Nat.not_le.mpr hroom)]
    rfl
  · rw [if_neg hroom, if_pos (Nat.not_lt.mp hroom)]
    rfl

theorem complete_eq_nextOutput (sim : Simulation) :
    Exchange.complete sim.offer sim.channels sim.nodes { output := sim.output } =
      sim.nextOutput := by
  have hlimit : sim.offer.limit = sim.settings.outputLimit := rfl
  have hfirst : Exchange.firstOf sim.offer sim.channels sim.nodes = sim.firstOutput := rfl
  simp only [Exchange.complete, nextOutput, hlimit, hfirst]
  by_cases hroom : sim.output.size < sim.settings.outputLimit
  · rw [if_pos ⟨trivial, hroom⟩]
    cases sim.firstOutput with
    | none => simp
    | some v => simp [Nat.not_le.mpr hroom]
  · rw [if_neg fun h => hroom h.2]
    cases sim.firstOutput with
    | none => rfl
    | some v => simp [Nat.not_lt.mp hroom]

theorem input_isSome_iff (sim : Simulation) :
    sim.offer.input.isSome = true ↔ sim.cursor < sim.currentSet.input.size := by
  simp [offer]

theorem steps_eq {ns : List Node} {x : Exchange} {failure : Option (UInt8 × NodeError)}
    (hs : sim.steps = (ns, x, failure)) :
    sim.afterSteps ns x = sim.inStep ∧
      failure = sim.nodes.findSome? fun n => Exchange.failureOf (sim.part n) := by
  obtain ⟨hnodes, houtput, hconsumed, hfailure⟩ :=
    Exchange.stepNodes_parts sim.offer sim.channels sim.nodes { output := sim.output }
  have hpart : Exchange.partOf sim.offer sim.channels
      (Exchange.rule sim.offer sim.channels sim.nodes { output := sim.output }) = sim.part := by
    rw [rule_eq_verdict]
    rfl
  rw [complete_eq_nextOutput] at houtput
  simp only [hpart] at hnodes hconsumed hfailure
  change sim.steps.1 = _ at hnodes
  change sim.steps.2.1.output = _ at houtput
  change sim.steps.2.1.consumed = _ at hconsumed
  change sim.steps.2.2 = _ at hfailure
  rw [hs] at hnodes houtput hconsumed hfailure
  refine ⟨?_, hfailure⟩
  have hread : x.consumed = true ↔
      sim.cursor < sim.currentSet.input.size ∧ ∃ n ∈ sim.nodes, (sim.part n).2.2 = true := by
    rw [hconsumed, Bool.false_or, Bool.and_eq_true, input_isSome_iff, List.any_eq_true]
    exact and_comm
  simp only at hnodes houtput
  simp only [afterSteps, remix, inStep, nextNodes, hnodes, houtput, hread]

theorem part_slot (sim : Simulation) (n : Node) : (sim.part n).2.1.slot = n.slot :=
  (fields_of_reset (Node.step_reset _ _ _ _)).1

theorem failureOf_part {n : Node} {slot : UInt8} {error : NodeError} :
    Exchange.failureOf (sim.part n) = some (slot, error) ↔
      sim.Fails n ∧ n.slot = slot ∧ (sim.part n).2.1.error = some error := by
  have hslot := sim.part_slot n
  unfold Fails Exchange.failureOf
  generalize sim.part n = p at hslot
  obtain ⟨result, after, read⟩ := p
  simp only at hslot
  cases result with
  | failed fault => simp [hslot, and_comm]
  | idle => simp
  | continued => simp
  | jumped => simp

theorem failureOf_part_eq_none {n : Node} :
    Exchange.failureOf (sim.part n) = none ↔ ¬ sim.Fails n := by
  constructor
  · intro hnone hf
    obtain ⟨fault, hfault⟩ := hf
    have hafter : (sim.part n).2.1 = n.fail n.lineAt fault := Node.step_failed hfault
    rw [Exchange.failureOf, hfault, hafter] at hnone
    cases hnone
  · intro hf
    by_contra hsome
    obtain ⟨⟨slot, error⟩, hfailure⟩ := Option.ne_none_iff_exists'.mp hsome
    exact hf (failureOf_part.mp hfailure).1

theorem part_putsOut {n : Node} {v : Int} (hv : sim.putsOut n = some v) :
    (sim.part n).1 =
      match sim.verdict v with
      | .ok () => .continued
      | .error reason => .failed (.refused reason) := by
  have hoffers : (n.ask sim.nextInput sim.channels).2.2.offers = some v := hv
  rw [part, Node.step_eq_ask (Terminal.ruled_steady _ _), Request.reply_ruled, hoffers]
  simp only [Option.elim]
  cases sim.verdict v with
  | ok u => exact (Node.ask_offers hoffers).1
  | error reason => rfl

/-- A tick as the simultaneous step of all nodes and what follows from it. -/
structure Synchronous (sim : Simulation) (t : Tick) : Prop where
  order : InOrder sim.nodes
  writers : ∀ n ∈ sim.nodes, ∀ v, sim.putsOut n = some v →
    (sim.part n).1 =
      match sim.verdict v with
      | .ok () => .continued
      | .error reason => .failed (.refused reason)
  halted_iff : (∃ slot error, t.outcome = .halted slot error) ↔ ∃ n ∈ sim.nodes, sim.Fails n
  /-- The node reported is the one in the lowest slot of those that failed. -/
  halted : ∀ slot error, t.outcome = .halted slot error →
    (∃ n ∈ sim.nodes, sim.Fails n ∧ n.slot = slot ∧ (sim.part n).2.1.error = some error) ∧
    (∀ n ∈ sim.nodes, sim.Fails n → slot ≤ n.slot) ∧
    t.events.filter Event.isRuntimeError = [.runtimeError slot error.line error.message] ∧
    t.after = { sim.inStep with halted := true }
  sound : (∀ n ∈ sim.nodes, ¬ sim.Fails n) → t.events.filter Event.isRuntimeError = []
  advanced : (∀ n ∈ sim.nodes, ¬ sim.Fails n) →
    ¬ (sim.inStep.output = sim.currentSet.output ∧
      sim.inStep.cursor = sim.currentSet.input.size) →
    t.outcome = .advanced ∧ t.after = sim.inStep
  passed : (∀ n ∈ sim.nodes, ¬ sim.Fails n) →
    sim.inStep.output = sim.currentSet.output ∧
      sim.inStep.cursor = sim.currentSet.input.size →
    if sim.setIndex + 1 < sim.puzzle.sets.length then
      t.outcome = .setPassed sim.setIndex ∧
      t.after = { sim.inStep with
        setsPassed := sim.setsPassed + 1
        setIndex := sim.setIndex + 1 }.resetSet
    else
      t.outcome = .won sim.inStep.currentScore ∧
      t.after = { sim.inStep with
        setsPassed := sim.setsPassed + 1
        mode := .won
        score := some sim.inStep.currentScore }

theorem filter_isRuntimeError {events : List Event} (h : ∀ e ∈ events, e.isOfNode) :
    events.filter Event.isRuntimeError = [] := by
  apply List.filter_eq_nil_iff.mpr
  intro e he
  have hof := h e he
  cases e <;> first | exact Bool.false_ne_true | cases hof

theorem first_failure {slot : UInt8} {error : NodeError} (horder : InOrder sim.nodes)
    (h : sim.nodes.findSome? (fun n => Exchange.failureOf (sim.part n)) = some (slot, error)) :
    (∃ n ∈ sim.nodes, sim.Fails n ∧ n.slot = slot ∧ (sim.part n).2.1.error = some error) ∧
      ∀ n ∈ sim.nodes, sim.Fails n → slot ≤ n.slot := by
  obtain ⟨before, n, after, hsplit, hn, hbefore⟩ := List.findSome?_eq_some_iff.mp h
  obtain ⟨hf, rfl, herror⟩ := failureOf_part.mp hn
  have hmem : n ∈ sim.nodes := by
    rw [hsplit]
    exact List.mem_append_right _ (.head _)
  refine ⟨⟨n, hmem, hf, rfl, herror⟩, ?_⟩
  intro m hm hfm
  rw [hsplit] at hm horder
  rcases List.mem_append.mp hm with hm | hm
  · exact absurd hfm (failureOf_part_eq_none.mp (hbefore m hm))
  · rcases List.mem_cons.mp hm with rfl | hm
    · exact UInt8.le_refl _
    · -- the nodes behind it stand in greater slots
      have hlater := (List.pairwise_cons.mp (List.pairwise_append.mp horder).2.1).1 m hm
      exact UInt8.le_of_lt hlater

theorem no_failure
    (h : sim.nodes.findSome? (fun n => Exchange.failureOf (sim.part n)) = none) :
    ∀ n ∈ sim.nodes, ¬ sim.Fails n :=
  fun n hn => failureOf_part_eq_none.mp (List.findSome?_eq_none_iff.mp h n hn)

theorem synchronous_of_sound {t : Tick} (horder : InOrder sim.nodes)
    (hsound : ∀ n ∈ sim.nodes, ¬ sim.Fails n)
    (houtcome : ∀ slot error, t.outcome ≠ .halted slot error)
    (hevents : t.events.filter Event.isRuntimeError = [])
    (hadvanced : ¬ (sim.inStep.output = sim.currentSet.output ∧
        sim.inStep.cursor = sim.currentSet.input.size) →
      t.outcome = .advanced ∧ t.after = sim.inStep)
    (hpassed : sim.inStep.output = sim.currentSet.output ∧
        sim.inStep.cursor = sim.currentSet.input.size →
      if sim.setIndex + 1 < sim.puzzle.sets.length then
        t.outcome = .setPassed sim.setIndex ∧
        t.after = { sim.inStep with
          setsPassed := sim.setsPassed + 1
          setIndex := sim.setIndex + 1 }.resetSet
      else
        t.outcome = .won sim.inStep.currentScore ∧
        t.after = { sim.inStep with
          setsPassed := sim.setsPassed + 1
          mode := .won
          score := some sim.inStep.currentScore }) : Synchronous sim t where
  order := horder
  writers := fun _ _ _ hv => part_putsOut hv
  halted_iff := by
    constructor
    · intro h
      obtain ⟨slot, error, hhalted⟩ := h
      exact absurd hhalted (houtcome slot error)
    · intro h
      obtain ⟨n, hn, hf⟩ := h
      exact absurd hf (hsound n hn)
  halted := fun slot error hhalted => absurd hhalted (houtcome slot error)
  sound := fun _ => hevents
  advanced := fun _ => hadvanced
  passed := fun _ => hpassed

/-- A tick is the simultaneous step of all nodes: each of them steps on its own old state and the old
channel values, reads one and the same input, and has its output decided by the first value put out
in the order of slots. -/
theorem tick_synchronous (sim : Simulation) (hreach : Reachable sim) (hactive : sim.Active) :
    Synchronous sim sim.tick := by
  have horder : InOrder sim.nodes := hreach.placed.order
  have ht := sim.tick_ticked
  generalize sim.tick = t at ht
  cases ht with
  | idle hidle => exact absurd hactive hidle
  | @halted ns x slot error _ hs =>
    obtain ⟨hafter, hfailure⟩ := steps_eq hs
    obtain ⟨hreported, hlowest⟩ := first_failure horder hfailure.symm
    obtain ⟨n, hn, hf, hslot, herror⟩ := hreported
    have hsome : ¬ ∀ n ∈ sim.nodes, ¬ sim.Fails n := fun hsound => hsound n hn hf
    refine ⟨horder, fun _ _ _ hv => part_putsOut hv, ?_, ?_, fun hsound => absurd hsound hsome,
      fun hsound => absurd hsound hsome, fun hsound => absurd hsound hsome⟩
    · exact iff_of_true ⟨slot, error, rfl⟩ ⟨n, hn, hf⟩
    · intro slot' error' houtcome
      cases houtcome
      refine ⟨⟨n, hn, hf, hslot, herror⟩, hlowest, ?_, by rw [hafter]⟩
      rw [List.filter_append, filter_isRuntimeError (steps_isOfNode hs)]
      rfl
  | @advanced ns x _ hs hc =>
    obtain ⟨hafter, hfailure⟩ := steps_eq hs
    apply synchronous_of_sound horder (no_failure hfailure.symm)
    · intro slot error
      exact Outcome.noConfusion
    · exact filter_isRuntimeError (steps_isOfNode hs)
    · exact fun _ => ⟨rfl, hafter⟩
    · intro hdone
      rw [← hafter] at hdone
      exact absurd hdone hc
  | @setPassed ns x _ hs hc hnext =>
    obtain ⟨hafter, hfailure⟩ := steps_eq hs
    apply synchronous_of_sound horder (no_failure hfailure.symm)
    · intro slot error
      exact Outcome.noConfusion
    · rw [List.filter_append, filter_isRuntimeError (steps_isOfNode hs)]
      rfl
    · intro hdone
      rw [← hafter] at hdone
      exact absurd hc hdone
    · intro _
      rw [if_pos hnext, toNextSet, hafter]
      exact ⟨rfl, rfl⟩
  | @won ns x _ hs hc hlast =>
    obtain ⟨hafter, hfailure⟩ := steps_eq hs
    apply synchronous_of_sound horder (no_failure hfailure.symm)
    · intro slot error
      exact Outcome.noConfusion
    · rw [List.filter_append, List.filter_append, filter_isRuntimeError (steps_isOfNode hs)]
      rfl
    · intro hdone
      rw [← hafter] at hdone
      exact absurd hc hdone
    · intro _
      rw [if_neg hlast, toWon, finalScore, hafter]
      exact ⟨rfl, rfl⟩

/-- A node that passes the input on, one that puts out the same number, and two that put out
others. -/
def clash : Simulation :=
  vacant.afterAll
    [.addNode .tiny 3, .setProgram 3 "MOV OUTPUT INPUT", .addNode .tiny 5,
      .setProgram 5 "MOV OUTPUT 3", .addNode .tiny 8, .setProgram 8 "\nMOV OUTPUT 4",
      .addNode .tiny 9, .setProgram 9 "MOV OUTPUT 5", .start]

theorem tick_synchronous_clash :
    Reachable clash ∧ clash.Active ∧ clash.firstOutput = some 3 ∧
      clash.tick.outcome = .halted 8 (.runtime 1 (.refused "Output collision")) ∧
      clash.tick.after = { clash.inStep with halted := true } ∧
      clash.inStep.output = #[3] ∧ clash.inStep.cursor = 1 := by
  have hreach : Reachable clash := reachable_vacant _
  have hactive : clash.Active := ⟨by decide +kernel, by decide +kernel⟩
  have houtcome : clash.tick.outcome =
      .halted 8 (.runtime 1 (.refused "Output collision")) := by decide +kernel
  obtain ⟨-, -, -, hafter⟩ := (tick_synchronous clash hreach hactive).halted _ _ houtcome
  exact ⟨hreach, hactive, by decide +kernel, houtcome, hafter, by decide +kernel, by decide +kernel⟩

end Simulation
end Lockstep

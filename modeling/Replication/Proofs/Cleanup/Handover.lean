import Mathlib.Data.List.Basic
import Replication.Cleanup

/-!
# Handing over, one entry after the other

A flush talks to two parties.  It offers its entries to a sink, one after the other, and
collects what goes wrong; then it tells a catalog about all locations at once.  What the
parties answer is up to them, and their answers may depend on all that they were told
before.

To say what the parties were told, one listens in: a party that is *overheard* behaves as
before, and whatever it is told is written down together with its answer.  These contacts
are the *conversation* of the hand-over.

* `conversation_eq`: every entry is offered once and in order, whatever is answered, and
  then all locations are reported at once.
* `outcome_handOver`, `counted_handOver`: the outcome and the count are read off the
  conversation.
* `flush_eq_handOver`: a flush is a hand-over to parties that keep what they take.
-/

namespace Replication
namespace Cleanup

/-- What a party says to what it is told. -/
abbrev Answer := Except Failure Unit

/-- The failure that an answer carries. -/
def Answer.failure? : Answer → Option Failure
  | .ok () => none
  | .error f => some f

theorem Answer.failure?_eq_none_iff {a : Answer} : a.failure? = none ↔ a = .ok () := by
  cases a with
  | ok => exact iff_of_true rfl rfl
  | error f => exact iff_of_false (fun h => nomatch h) (fun h => nomatch h)

/-- The failure to tell the catalog, for the failure that it answered with. -/
def unreported (f : Failure) : Failure :=
  .detailed .catalogListenerFailed
    "Replica catalog listener rejected the deprecated locations" f.render

/-- A sink and a catalog, by what they answer and what becomes of them. -/
structure Parties (σ : Type) where
  offer : σ → Entry → Answer × σ
  report : σ → List Location → Answer × σ

/-- What comes of a hand-over. -/
structure Handover (σ : Type) where
  outcome : Answer
  /-- How many entries were taken; nothing if nobody was asked. -/
  counted : Option Nat
  parties : σ

namespace Parties

variable {σ : Type} (p : Parties σ)

/-- Offers entries one after the other.  A refusal is kept, and stops nothing. -/
def offerAll (s : σ) : List Entry → List Failure × σ
  | [] => ([], s)
  | e :: es =>
      match p.offer s e with
      | (.ok (), s) => offerAll s es
      | (.error f, s) =>
          let (fs, s) := offerAll s es
          (f :: fs, s)

/-- Hands entries over: to the sink one by one, and to the catalog all together. -/
def handOver (s : σ) (es : List Entry) : Handover σ :=
  if es.isEmpty then ⟨.ok (), none, s⟩
  else
    let (fs, s) := p.offerAll s es
    let (a, s) := p.report s (es.map Entry.location)
    ⟨Failure.ofList (fs ++ (a.failure?.map unreported).toList), some (es.length - fs.length), s⟩

/-! ## Answers -/

/-- What the sink answers to entries that are offered one after the other. -/
def answers (s : σ) : List Entry → List Answer
  | [] => []
  | e :: es => (p.offer s e).1 :: answers (p.offer s e).2 es

/-- The parties after entries were offered. -/
def after (s : σ) : List Entry → σ
  | [] => s
  | e :: es => after (p.offer s e).2 es

theorem length_answers (s : σ) (es : List Entry) : (p.answers s es).length = es.length := by
  induction es generalizing s with
  | nil => rfl
  | cons e es ih => exact congrArg (· + 1) (ih (p.offer s e).2)

/-- Every entry is offered, and the failures among the answers are kept in their order. -/
theorem offerAll_eq (s : σ) (es : List Entry) :
    p.offerAll s es = ((p.answers s es).filterMap Answer.failure?, p.after s es) := by
  induction es generalizing s with
  | nil => rfl
  | cons e es ih =>
    rw [offerAll, answers, after]
    rcases p.offer s e with ⟨f | _, t⟩
    · show (f :: (p.offerAll t es).1, (p.offerAll t es).2) = _
      rw [ih t]
      rfl
    · exact ih t

end Parties

/-! ## Listening in -/

/-- What a party was told, and what it answered. -/
inductive Contact where
  | offered (entry : Entry) (answer : Answer)
  | reported (locations : List Location) (answer : Answer)

namespace Contact

def answer : Contact → Answer
  | offered _ a => a
  | reported _ a => a

/-- The failure that a contact adds to the outcome. -/
def failure? : Contact → Option Failure
  | offered _ a => a.failure?
  | reported _ a => a.failure?.map unreported

/-- The kinds that a contact adds to those of the outcome. -/
def kinds : Contact → List Failure.Kind
  | offered _ (.error f) => f.kinds
  | reported _ (.error _) => [.catalogListenerFailed]
  | offered _ (.ok ()) => []
  | reported _ (.ok ()) => []

/-- Whether an entry was taken. -/
def isTaken : Contact → Bool
  | offered _ (.ok ()) => true
  | offered _ (.error _) => false
  | reported _ _ => false

theorem failure?_eq_none_iff (x : Contact) : x.failure? = none ↔ x.answer = .ok () := by
  cases x with
  | offered e a => exact Answer.failure?_eq_none_iff
  | reported ls a => exact Option.map_eq_none_iff.trans Answer.failure?_eq_none_iff

theorem kinds_eq (x : Contact) : x.kinds = x.failure?.toList.flatMap Failure.kinds := by
  rcases x with ⟨e, _ | _⟩ | ⟨ls, _ | _⟩
  · exact (List.append_nil _).symm
  · rfl
  · rfl
  · rfl

end Contact

namespace Parties

variable {σ : Type} (p : Parties σ)

/-- The parties with someone who writes down what they are told. -/
def overheard : Parties (σ × List Contact) where
  offer s e :=
    let (a, t) := p.offer s.1 e
    (a, t, s.2 ++ [.offered e a])
  report s ls :=
    let (a, t) := p.report s.1 ls
    (a, t, s.2 ++ [.reported ls a])

/-- All that the parties are told during a hand-over. -/
def conversation (s : σ) (es : List Entry) : List Contact :=
  (p.overheard.handOver (s, []) es).parties.2

theorem answers_overheard (s : σ) (xs : List Contact) (es : List Entry) :
    p.overheard.answers (s, xs) es = p.answers s es := by
  induction es generalizing s xs with
  | nil => rfl
  | cons e es ih =>
    exact congrArg ((p.offer s e).1 :: ·)
      (ih (p.offer s e).2 (xs ++ [Contact.offered e (p.offer s e).1]))

theorem after_overheard (s : σ) (xs : List Contact) (es : List Entry) :
    p.overheard.after (s, xs) es =
      (p.after s es, xs ++ List.zipWith Contact.offered es (p.answers s es)) := by
  induction es generalizing s xs with
  | nil => exact congrArg (s, ·) (List.append_nil xs).symm
  | cons e es ih =>
    rw [answers, List.zipWith_cons_cons, List.append_cons]
    exact ih (p.offer s e).2 (xs ++ [Contact.offered e (p.offer s e).1])

variable (s : σ) {es : List Entry}

theorem handOver_of_ne_nil (h : es ≠ []) :
    p.handOver s es =
      ⟨Failure.ofList ((p.answers s es).filterMap Answer.failure? ++
          ((p.report (p.after s es) (es.map Entry.location)).1.failure?.map
            unreported).toList),
        some (es.length - ((p.answers s es).filterMap Answer.failure?).length),
        (p.report (p.after s es) (es.map Entry.location)).2⟩ := by
  rw [handOver, if_neg (by rwa [List.isEmpty_iff]), offerAll_eq]

/-- **Every entry is offered once and in order**, whatever is answered, and then all
locations are reported at once. -/
theorem conversation_eq (h : es ≠ []) :
    p.conversation s es =
      List.zipWith Contact.offered es (p.answers s es) ++
        [.reported (es.map Entry.location)
          (p.report (p.after s es) (es.map Entry.location)).1] := by
  rw [conversation, handOver_of_ne_nil _ _ h, after_overheard, List.nil_append]
  rfl

theorem handOver_overheard (es : List Entry) :
    p.overheard.handOver (s, []) es =
      ⟨(p.handOver s es).outcome, (p.handOver s es).counted,
        (p.handOver s es).parties, p.conversation s es⟩ := by
  by_cases h : es = []
  · rw [h]
    rfl
  · rw [conversation, handOver_of_ne_nil _ _ h, handOver_of_ne_nil _ _ h, answers_overheard,
      after_overheard]
    rfl

variable {as : List Answer}

theorem failures_offered (h : as.length = es.length) :
    (List.zipWith Contact.offered es as).filterMap Contact.failure? =
      as.filterMap Answer.failure? := by
  induction es generalizing as with
  | nil => rw [List.length_eq_zero_iff.1 h, List.zipWith_nil_left, List.filterMap_nil,
      List.filterMap_nil]
  | cons e es ih =>
    obtain ⟨a, as, rfl⟩ := List.exists_cons_of_length_eq_add_one h
    rw [List.zipWith_cons_cons, List.filterMap_cons, List.filterMap_cons, ih (Nat.succ.inj h)]
    rfl

theorem countP_isTaken_offered (h : as.length = es.length) :
    (List.zipWith Contact.offered es as).countP Contact.isTaken +
      (as.filterMap Answer.failure?).length = es.length := by
  induction es generalizing as with
  | nil =>
    rw [List.length_eq_zero_iff.1 h]
    rfl
  | cons e es ih =>
    obtain ⟨a, as, rfl⟩ := List.exists_cons_of_length_eq_add_one h
    have hes := ih (Nat.succ.inj h)
    rw [List.zipWith_cons_cons, List.length_cons]
    cases a with
    | ok =>
      rw [List.countP_cons_of_pos rfl, List.filterMap_cons_none rfl]
      omega
    | error f =>
      have hcons : (Except.error f :: as).filterMap Answer.failure? =
          f :: as.filterMap Answer.failure? := rfl
      rw [List.countP_cons_of_neg Bool.false_ne_true, hcons, List.length_cons]
      omega

/-- **The outcome collects the failures of the conversation.** -/
theorem outcome_handOver (es : List Entry) :
    (p.handOver s es).outcome =
      Failure.ofList ((p.conversation s es).filterMap Contact.failure?) := by
  by_cases h : es = []
  · rw [h]
    rfl
  · rw [conversation_eq _ _ h, List.filterMap_append,
      failures_offered (p.length_answers s es), handOver_of_ne_nil _ _ h]
    cases (p.report (p.after s es) (es.map Entry.location)).1 <;> rfl

theorem outcome_eq_ok_iff (es : List Entry) :
    (p.handOver s es).outcome = .ok () ↔ ∀ x ∈ p.conversation s es, x.answer = .ok () := by
  rw [outcome_handOver, Failure.ofList_eq_ok_iff, List.filterMap_eq_nil_iff]
  exact forall₂_congr fun x _ => x.failure?_eq_none_iff

/-- The kinds of the outcome are those of the failures of the conversation. -/
theorem kinds_outcome {es : List Entry} {f : Failure}
    (h : (p.handOver s es).outcome = .error f) :
    f.kinds = (p.conversation s es).flatMap Contact.kinds := by
  rw [outcome_handOver] at h
  rw [Failure.kinds_of_ofList_eq_error h, List.filterMap_eq_flatMap_toList, List.flatMap_assoc]
  exact List.flatMap_congr fun x _ => x.kinds_eq.symm

/-- **The count is that of the entries taken**, and nothing is counted if nobody was
asked. -/
theorem counted_handOver (es : List Entry) :
    (p.handOver s es).counted =
      if es.isEmpty then none
      else some ((p.conversation s es).countP Contact.isTaken) := by
  by_cases h : es = []
  · rw [h]
    rfl
  · have hlength := countP_isTaken_offered (p.length_answers s es)
    rw [if_neg (by rwa [List.isEmpty_iff]), conversation_eq _ _ h, List.countP_append,
      handOver_of_ne_nil _ _ h]
    refine congrArg some ?_
    rw [List.countP_cons_of_neg Bool.false_ne_true, List.countP_nil]
    omega

end Parties

/-! ## Parties that keep what they take -/

/-- What the sink answers to an entry. -/
def Sink.answer (s : Sink) (e : Entry) : Answer :=
  if s.takes e then .ok () else .error (Fault.refused e).toFailure

/-- What the catalog answers to locations. -/
def Catalog.answer (k : Catalog) (ls : List Location) : Answer :=
  if k.reachable then .ok ()
  else
    .error (.detailed .inputOutput "Replica metastore is unreachable"
      (toString ls.length ++ " locations"))

/-- The catalog after a report. -/
def Catalog.told (k : Catalog) (ls : List Location) : Catalog :=
  { k with batches := if k.reachable then k.batches ++ [ls] else k.batches }

/-- A sink and a catalog that keep what they take. -/
def keeping : Parties (Sink × Catalog) where
  offer s e := (s.1.answer e, s.1.offer [e], s.2)
  report s ls := (s.2.answer ls, s.1, s.2.told ls)

theorem Sink.offer_nil (s : Sink) : s.offer [] = s := by
  rw [offer, List.filter_nil, List.append_nil]

theorem Sink.offer_cons (s : Sink) (e : Entry) (es : List Entry) :
    s.offer (e :: es) = (s.offer [e]).offer es := by
  have hfilter : (e :: es).filter s.takes = [e].filter s.takes ++ es.filter s.takes := by
    rw [← List.filter_append, List.singleton_append]
  rw [offer, hfilter, ← List.append_assoc]
  rfl

theorem after_keeping (s : Sink) (k : Catalog) (es : List Entry) :
    keeping.after (s, k) es = (s.offer es, k) := by
  induction es generalizing s with
  | nil => exact congrArg (·, k) s.offer_nil.symm
  | cons e es ih =>
    rw [s.offer_cons]
    exact ih (s.offer [e])

/-- The answers of the sink are fixed beforehand. -/
theorem answers_keeping (s : Sink) (k : Catalog) (es : List Entry) :
    keeping.answers (s, k) es = es.map s.answer := by
  induction es generalizing s with
  | nil => rfl
  | cons e es ih => exact congrArg (s.answer e :: ·) (ih (s.offer [e]))

/-- All that is said during a flush. -/
def conversation (c : Cleanup) : List Contact :=
  keeping.conversation (c.sink, c.catalog) c.entries

theorem conversation_of_ne_nil {c : Cleanup} (h : c.entries ≠ []) :
    c.conversation =
      (c.entries.map fun e => .offered e (c.sink.answer e)) ++
        [.reported c.locations (c.catalog.answer c.locations)] := by
  rw [conversation, Parties.conversation_eq _ _ h, answers_keeping, after_keeping,
    List.zipWith_map_right, List.zipWith_self]
  rfl

theorem conversation_of_eq_nil {c : Cleanup} (h : c.entries = []) : c.conversation = [] := by
  rw [conversation, h]
  rfl

/-- The readings after a count. -/
def counting (ms : Metrics) : Option Nat → Metrics
  | none => ms
  | some n => ms.add .cleanupLocations n

/-- The record after it was handed over. -/
def handedOver (c : Cleanup) (h : Handover (Sink × Catalog)) : Cleanup where
  entries := c.entries
  sink := h.parties.1
  catalog := h.parties.2
  metrics := counting c.metrics h.counted

theorem Sink.failures_answer (s : Sink) (es : List Entry) :
    (es.map s.answer).filterMap Answer.failure? =
      ((es.filter fun e => !s.takes e).map Fault.refused).map Fault.toFailure := by
  induction es with
  | nil => rfl
  | cons e es ih =>
    rw [List.map_cons, Sink.answer]
    cases htakes : s.takes e with
    | true =>
      rw [List.filter_cons_of_neg (by rw [htakes]; exact Bool.false_ne_true)]
      exact ih
    | false =>
      rw [List.filter_cons_of_pos (by rw [htakes]; rfl)]
      exact congrArg ((Fault.refused e).toFailure :: ·) ih

theorem Catalog.failure_answer (k : Catalog) (ls : List Location) :
    ((k.answer ls).failure?.map unreported).toList =
      (if k.reachable then [] else [Fault.unreachable ls.length]).map Fault.toFailure := by
  rw [answer]
  cases k.reachable <;> rfl

/-- **A flush is a hand-over** to parties that keep what they take. -/
theorem flush_eq_handOver (c : Cleanup) :
    c.flush =
      ((keeping.handOver (c.sink, c.catalog) c.entries).outcome,
        c.handedOver (keeping.handOver (c.sink, c.catalog) c.entries)) := by
  by_cases h : c.entries = []
  · have hnone : keeping.handOver (c.sink, c.catalog) c.entries =
        ⟨.ok (), none, c.sink, c.catalog⟩ := by
      rw [h]
      rfl
    rw [flush_of_entries_eq_nil h, hnone]
    rfl
  · have hcount : c.entries.length - (c.entries.filter fun e => !c.sink.takes e).length =
        (c.entries.filter c.sink.takes).length := by
      have hlength := c.entries.length_eq_length_filter_add c.sink.takes
      omega
    rw [flush, if_neg (by rwa [List.isEmpty_iff]), handedOver,
      Parties.handOver_of_ne_nil _ _ h, answers_keeping, after_keeping,
      Sink.failures_answer, List.length_map, List.length_map, hcount, refusals,
      List.map_append]
    have hreport : ((c.catalog.answer c.locations).failure?.map unreported).toList =
        (if c.catalog.reachable then [] else [Fault.unreachable c.entries.length]).map
          Fault.toFailure := by
      rw [c.catalog.failure_answer, locations, List.length_map]
    rw [← hreport]
    rfl

end Cleanup
end Replication

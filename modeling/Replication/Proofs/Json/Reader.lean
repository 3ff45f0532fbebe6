import Replication.Json.Reader
import Replication.Proofs.Json.Lexeme

/-!
# Values are read back

A reader *reads back* a value when it finds the value in its compact text, whatever follows,
and leaves what follows as it is.  What follows has to be delimited, for the sake of the
numbers.

There is one statement for each kind of reader, and they are put together as the readers
are: a list is read back by a reader whose items are read back, and so is a record whose
members are.  In a record the reader chooses by the name what it reads a member with, and
puts the members it found into the order that it knows.

* `Reads.array`, `Reads.dictionary`: lists, and objects of texts.
* `Reads.record`: records, for members in the order of the record.
-/

namespace Replication
namespace Json

/-- The reader gets a value back from its compact text, and leaves what follows. -/
def Reads (r : Reader Json) (v : Json) : Prop :=
  ∀ rest, Delimited rest → r (v.render ++ rest) = .ok (v, rest)

/-! ## How the text of a value begins -/

theorem isBlank_of_isDigit {c : Char} (h : c.isDigit = true) : isBlank c = false := by
  rw [isBlank, Bool.eq_false_iff]
  intro hblank
  simp only [Bool.or_eq_true, beq_iff_eq] at hblank
  rcases hblank with ((rfl | rfl) | rfl) | rfl
  all_goals exact absurd h (by decide)

theorem renderNumber_eq_cons (n : Nat) :
    ∃ c s, renderNumber n = c :: s ∧ c.isDigit = true := by
  obtain ⟨c, s, h⟩ := List.exists_cons_of_ne_nil (Nat.toDigits_ne_nil (n := n) (b := 10))
  refine ⟨c, s, h, ?_⟩
  exact Nat.isDigit_of_mem_toDigits (b := 10) (n := n) (by decide) (by decide)
    (h ▸ List.mem_cons_self)

/-- The text of a value begins with no blank, and with no bracket that ends a list; it
begins like the word `null` only if it is that word. -/
theorem render_eq_cons (v : Json) :
    ∃ c s, v.render = c :: s ∧ isBlank c = false ∧ c ≠ ']' ∧ (c = 'n' → v = null) := by
  rcases v with _ | (_ | _) | n | s | (_ | ⟨v, vs⟩) | (_ | ⟨⟨k, v⟩, ms⟩)
  case number =>
    obtain ⟨c, s, h, hc⟩ := renderNumber_eq_cons n
    refine ⟨c, s, h, isBlank_of_isDigit hc, ?_, ?_⟩
    · rintro rfl
      exact absurd hc (by decide)
    · rintro rfl
      exact absurd hc (by decide)
  case null => exact ⟨_, _, rfl, by decide, by decide, fun _ => rfl⟩
  all_goals exact ⟨_, _, rfl, by decide, by decide, fun h => absurd h (by decide)⟩

/-! ## Simple values -/

theorem renderText_append (s rest : List Char) :
    renderText s ++ rest = '"' :: (s.flatMap escape ++ '"' :: rest) := by
  rw [renderText, List.cons_append, List.cons_append, List.append_assoc,
    List.singleton_append]

theorem readText_renderText (s rest : List Char) :
    readText (renderText s ++ rest) = .ok (text (String.ofList s), rest) := by
  rw [readText, renderText_append, skipBlanks_cons (by decide)]
  simp only [textBody_flatMap_escape]

namespace Reads

theorem text (s : String) : Reads readText (text s) := by
  intro rest _
  rw [render, readText_renderText, String.ofList_toList]

theorem flag (b : Bool) : Reads readFlag (flag b) := by
  intro rest _
  cases b with
  | true => rfl
  | false => rfl

theorem number {n limit : Nat} (hn : n ≤ limit) (hmax : n ≤ Numeral.limit) :
    Reads (readNumber limit) (number n) := by
  intro rest hrest
  have hread := Numeral.read_renderNumber n hrest
  obtain ⟨c, s, hcons, hc⟩ := renderNumber_eq_cons n
  rw [hcons, List.cons_append] at hread
  rw [render, hcons, List.cons_append, readNumber, skipBlanks_cons (isBlank_of_isDigit hc)]
  simp only [if_pos (Or.inr hc), hread, Numeral.natural?_toDigits hmax, if_pos hn]

theorem nullable_null (r : Reader Json) : Reads (readNullable r) null := by
  intro rest _
  rfl

theorem nullable {r : Reader Json} {v : Json} (h : Reads r v) : Reads (readNullable r) v := by
  intro rest hrest
  by_cases hv : v = .null
  · rw [hv]
    exact nullable_null r rest hrest
  · obtain ⟨c, s, hcons, hblank, -, hnull⟩ := render_eq_cons v
    have hread := h rest hrest
    rw [hcons, List.cons_append] at hread ⊢
    unfold readNullable
    rw [skipBlanks_cons hblank]
    split
    · next heq => exact absurd (hnull (List.cons.inj heq).1) hv
    · exact hread

theorem name {names : List String} {s : String} (h : s ∈ names) :
    Reads (readCase names) (.text s) := by
  intro rest _
  have hread := readText_renderText s.toList rest
  rw [String.ofList_toList, renderText_append] at hread
  rw [render, renderText_append, readCase, skipBlanks_cons (by decide)]
  simp only [if_true, readName, hread, List.contains_iff_mem.2 h]

end Reads

/-! ## Lists -/

theorem delimited_renderItems (vs : List Json) (rest : List Char) :
    Delimited (renderItems vs ++ rest) := by
  cases vs with
  | nil => exact Delimited.cons (Or.inr (Or.inl rfl)) _
  | cons v vs => exact Delimited.cons (Or.inl rfl) _

theorem length_lt_length_renderItems (vs : List Json) :
    vs.length < (renderItems vs).length := by
  induction vs with
  | nil => exact Nat.lt_succ_self 0
  | cons v vs ih =>
    rw [renderItems, List.length_append, List.length_cons, List.length_cons]
    omega

theorem nextItem_render (v : Json) (rest : List Char) :
    nextItem true (v.render ++ rest) = .ok (some (v.render ++ rest)) ∧
      nextItem false (',' :: v.render ++ rest) = .ok (some (v.render ++ rest)) := by
  obtain ⟨c, s, hcons, hblank, hend, -⟩ := render_eq_cons v
  have hcomma : (',' : Char) ≠ ']' := by decide
  rw [List.cons_append, hcons, List.cons_append, nextItem, nextItem, skipBlanks_cons hblank,
    skipBlanks_cons (by decide)]
  simp only [if_neg hend, if_neg hcomma, if_true, Bool.false_eq_true, if_false,
    skipBlanks_cons hblank, and_self]

/-- The items behind the first ones are read back, up to the end of the list. -/
theorem itemsWithin_renderItems {r : Reader Json} {vs : List Json} (h : ∀ v ∈ vs, Reads r v)
    {n : Nat} (hn : vs.length < n) (done : List Json) (rest : List Char) :
    itemsWithin r n false done (renderItems vs ++ rest) =
      .ok (done.reverse ++ vs, ']' :: rest) := by
  induction vs generalizing n done with
  | nil =>
    rcases n with _ | n
    · exact absurd hn (Nat.not_lt_zero _)
    · rw [List.append_nil]
      rfl
  | cons v vs ih =>
    rcases n with _ | n
    · exact absurd hn (Nat.not_lt_zero _)
    · have hv := h v List.mem_cons_self _ (delimited_renderItems vs rest)
      have hvs : ∀ w ∈ vs, Reads r w := by
        intro w hw
        exact h w (List.mem_cons_of_mem _ hw)
      rw [renderItems, List.append_assoc, itemsWithin, (nextItem_render v _).2]
      simp only [hv]
      rw [ih hvs (Nat.lt_of_succ_lt_succ hn), List.reverse_cons, List.append_assoc,
        List.singleton_append]

/-- **A list is read back** if its items are. -/
theorem Reads.array {r : Reader Json} {vs : List Json} (h : ∀ v ∈ vs, Reads r v) :
    Reads (readArray r) (array vs) := by
  intro rest _
  rcases vs with _ | ⟨v, vs⟩
  · rfl
  · have hv := h v List.mem_cons_self _ (delimited_renderItems vs rest)
    have hvs : ∀ w ∈ vs, Reads r w := by
      intro w hw
      exact h w (List.mem_cons_of_mem _ hw)
    have hlen : vs.length < (v.render ++ (renderItems vs ++ rest)).length := by
      have := length_lt_length_renderItems vs
      rw [List.length_append, List.length_append]
      omega
    rw [render, List.cons_append, List.cons_append, List.append_assoc, readArray,
      skipBlanks_cons (by decide)]
    simp only [itemsWithin, (nextItem_render v _).1, hv, itemsWithin_renderItems hvs hlen]
    rfl

/-! ## Objects -/

theorem delimited_renderMembers (ms : List (String × Json)) (rest : List Char) :
    Delimited (renderMembers ms ++ rest) := by
  cases ms with
  | nil => exact Delimited.cons (Or.inr (Or.inr rfl)) _
  | cons p ms => exact Delimited.cons (Or.inl rfl) _

theorem length_lt_length_renderMembers (ms : List (String × Json)) :
    ms.length < (renderMembers ms).length := by
  induction ms with
  | nil => exact Nat.lt_succ_self 0
  | cons p ms ih =>
    rw [renderMembers, List.length_append, List.length_append, List.length_cons,
      List.length_cons]
    omega

/-- A member behind the quote before its name, and what follows. -/
def named (key : String) (v : Json) (rest : List Char) : List Char :=
  key.toList.flatMap escape ++ '"' :: ':' :: (v.render ++ rest)

theorem renderMembers_cons_append (key : String) (v : Json) (ms : List (String × Json))
    (rest : List Char) :
    renderMembers ((key, v) :: ms) ++ rest =
      ',' :: '"' :: named key v (renderMembers ms ++ rest) := by
  rw [renderMembers, named, List.cons_append, List.cons_append, List.cons_append,
    List.append_assoc, List.append_assoc, renderText_append, List.cons_append]

theorem render_object_cons_append (key : String) (v : Json) (ms : List (String × Json))
    (rest : List Char) :
    (object ((key, v) :: ms)).render ++ rest =
      '\x7b' :: '"' :: named key v (renderMembers ms ++ rest) := by
  rw [render, named, List.cons_append, List.cons_append, List.cons_append,
    List.append_assoc, List.append_assoc, renderText_append, List.cons_append]

theorem length_lt_length_named (key : String) (v : Json) (ms : List (String × Json))
    (rest : List Char) :
    ms.length < (named key v (renderMembers ms ++ rest)).length := by
  have := length_lt_length_renderMembers ms
  rw [named, List.length_append, List.length_cons, List.length_cons, List.length_append,
    List.length_append]
  omega

section

variable {r : Reader Json} {v : Json} {ms : List (String × Json)}

/-- A reader of members goes past one that it reads back. -/
theorem membersWithin_named (h : Reads r v) {first : Bool} {s : List Char} {key : String}
    {rest : List Char}
    (hs : nextKey first s = .ok (some (named key v (renderMembers ms ++ rest)))) (n : Nat)
    (done : List (String × Json)) :
    membersWithin r (n + 1) first done s =
      membersWithin r n false ((key, v) :: done) (renderMembers ms ++ rest) := by
  have hv := h _ (delimited_renderMembers ms rest)
  rw [membersWithin, hs]
  simp only [named, textBody_flatMap_escape, expectColon, skipBlanks_cons (c := ':') rfl, hv,
    String.ofList_toList]

/-- The members behind the first ones are read back, up to the end of the object. -/
theorem membersWithin_renderMembers (h : ∀ p ∈ ms, Reads r p.2) {n : Nat}
    (hn : ms.length < n) (done : List (String × Json)) (rest : List Char) :
    membersWithin r n false done (renderMembers ms ++ rest) =
      .ok (done.reverse ++ ms, '\x7d' :: rest) := by
  induction ms generalizing n done with
  | nil =>
    rcases n with _ | n
    · exact absurd hn (Nat.not_lt_zero _)
    · rw [List.append_nil]
      rfl
  | cons p ms ih =>
    obtain ⟨key, v⟩ := p
    rcases n with _ | n
    · exact absurd hn (Nat.not_lt_zero _)
    · have hms : ∀ q ∈ ms, Reads r q.2 := by
        intro q hq
        exact h q (List.mem_cons_of_mem _ hq)
      rw [renderMembers_cons_append, membersWithin_named (h _ List.mem_cons_self) rfl,
        ih hms (Nat.lt_of_succ_lt_succ hn), List.reverse_cons, List.append_assoc,
        List.singleton_append]

/-- The members of an object are read back from the first one on. -/
theorem membersWithin_first {key : String} (hv : Reads r v) (h : ∀ p ∈ ms, Reads r p.2)
    {n : Nat} (hn : ms.length < n) (rest : List Char) :
    membersWithin r (n + 1) true [] ('"' :: named key v (renderMembers ms ++ rest)) =
      .ok ((key, v) :: ms, '\x7d' :: rest) := by
  rw [membersWithin_named hv rfl, membersWithin_renderMembers h hn]
  rfl

end

/-- **An object of texts is read back**, repeated names included. -/
theorem Reads.dictionary (ps : List (String × String)) :
    Reads readDictionary (dictionary ps) := by
  intro rest _
  rcases ps with _ | ⟨⟨key, value⟩, ps⟩
  · rfl
  · have hms : ∀ p ∈ ps.map (fun p => (p.1, Json.text p.2)), Reads readText p.2 := by
      intro p hp
      obtain ⟨q, -, rfl⟩ := List.mem_map.1 hp
      exact Reads.text q.2
    have hlen := Nat.lt_succ_of_lt
      (length_lt_length_named key (.text value) (ps.map fun p => (p.1, Json.text p.2)) rest)
    rw [Json.dictionary, List.map_cons, render_object_cons_append, readDictionary,
      skipBlanks_cons (by decide)]
    simp only [List.length_cons, membersWithin_first (Reads.text value) hms hlen]
    rfl

/-! ## Records -/

theorem lookup_eq_none {ms : List (String × Json)} {name : String}
    (h : name ∉ ms.map Prod.fst) : ms.lookup name = none := by
  rw [List.lookup_eq_none_iff]
  intro p hp
  refine bne_iff_ne.2 ?_
  rintro rfl
  exact h (List.mem_map_of_mem hp)

/-- The members of a record that are given, in the order of the record: each is read back,
and those that are left out may be. -/
inductive ReadsMembers : List Member → List (String × Json) → Prop where
  | nil : ReadsMembers [] []
  | given {m : Member} {v : Json} {members : List Member} {ms : List (String × Json)}
      (hv : Reads m.read v) (h : ReadsMembers members ms) :
      ReadsMembers (m :: members) ((m.name, v) :: ms)
  | leftOut {m : Member} {members : List Member} {ms : List (String × Json)}
      (hm : m.required = false) (h : ReadsMembers members ms) :
      ReadsMembers (m :: members) ms

namespace ReadsMembers

variable {members : List Member} {ms : List (String × Json)}

theorem sublist (h : ReadsMembers members ms) :
    (ms.map Prod.fst).Sublist (members.map Member.name) := by
  induction h with
  | nil => exact List.Sublist.slnil
  | given hv h ih => exact ih.cons_cons _
  | leftOut hm h ih => exact ih.cons _

theorem exists_mem (h : ReadsMembers members ms) :
    ∀ p ∈ ms, ∃ m ∈ members, m.name = p.1 ∧ Reads m.read p.2 := by
  induction h with
  | nil => exact fun p hp => absurd hp List.not_mem_nil
  | @given m v members ms hv h ih =>
    intro p hp
    rcases List.mem_cons.1 hp with rfl | hp
    · exact ⟨m, List.mem_cons_self, rfl, hv⟩
    · obtain ⟨q, hq, hread⟩ := ih p hp
      exact ⟨q, List.mem_cons_of_mem _ hq, hread⟩
  | leftOut hm h ih =>
    intro p hp
    obtain ⟨q, hq, hread⟩ := ih p hp
    exact ⟨q, List.mem_cons_of_mem _ hq, hread⟩

/-- **What was found is put into the order of the record**, in whatever order it was
found. -/
theorem arrange_eq (h : ReadsMembers members ms) (hnodup : (members.map Member.name).Nodup)
    {found : List (String × Json)}
    (hfound : ∀ m ∈ members, found.lookup m.name = ms.lookup m.name) :
    arrange members found = .ok ms := by
  have hall : (members.all fun m => !m.required || (found.lookup m.name).isSome) = true ∧
      members.filterMap (fun m => (found.lookup m.name).map fun v => (m.name, v)) = ms := by
    induction h with
    | nil => exact ⟨rfl, rfl⟩
    | @given m v members ms hv h ih =>
      obtain ⟨hm, htail⟩ := List.nodup_cons.1 hnodup
      have hhead : found.lookup m.name = some v := by
        rw [hfound m List.mem_cons_self, List.lookup_cons_self]
      have hrest : ∀ q ∈ members, found.lookup q.name = ms.lookup q.name := by
        intro q hq
        have hne : q.name ≠ m.name := by
          intro he
          exact hm (he ▸ List.mem_map_of_mem hq)
        rw [hfound q (List.mem_cons_of_mem _ hq), List.lookup_cons, beq_eq_false_iff_ne.2 hne]
      obtain ⟨hall, hfilter⟩ := ih htail hrest
      refine ⟨?_, ?_⟩
      · rw [List.all_cons, hall, hhead, Option.isSome_some, Bool.or_true, Bool.and_true]
      · rw [List.filterMap_cons, hhead, hfilter]
        rfl
    | @leftOut m members ms hm0 h ih =>
      obtain ⟨hm, htail⟩ := List.nodup_cons.1 hnodup
      have hnew : m.name ∉ ms.map Prod.fst := by
        intro hmem
        exact hm (h.sublist.subset hmem)
      have hhead : found.lookup m.name = none := by
        rw [hfound m List.mem_cons_self, lookup_eq_none hnew]
      obtain ⟨hall, hfilter⟩ := ih htail fun q hq => hfound q (List.mem_cons_of_mem _ hq)
      refine ⟨?_, ?_⟩
      · rw [List.all_cons, hall, hm0, Bool.not_false, Bool.true_or, Bool.and_true]
      · rw [List.filterMap_cons, hhead, hfilter]
        rfl
  rw [arrange, if_pos hall.1, hall.2]

end ReadsMembers

/-- A record of distinct names finds a member by its name. -/
theorem find?_name {members : List Member} (hnodup : (members.map Member.name).Nodup)
    {m : Member} (hm : m ∈ members) :
    (members.find? fun q => q.name == m.name) = some m := by
  induction members with
  | nil => exact absurd hm List.not_mem_nil
  | cons q members ih =>
    obtain ⟨hq, htail⟩ := List.nodup_cons.1 hnodup
    rcases List.mem_cons.1 hm with rfl | hm
    · exact List.find?_cons_of_pos (beq_self_eq_true m.name)
    · have hne : q.name ≠ m.name := by
        intro he
        exact hq (he ▸ List.mem_map_of_mem hm)
      rw [List.find?_cons, beq_eq_false_iff_ne.2 hne]
      exact ih htail hm

section

variable {members : List Member} {ms : List (String × Json)}

/-- A reader of a record goes past a member that it knows, reads back, and has not found
before. -/
theorem recordWithin_named {m : Member} {v : Json} {key : String} {first : Bool}
    {found : List (String × Json)} {s rest : List Char}
    (hs : nextKey first s = .ok (some (named key v (renderMembers ms ++ rest))))
    (hfind : (members.find? fun m => m.name == key) = some m) (hname : m.name = key)
    (hnew : found.lookup key = none) (hv : Reads m.read v) (n : Nat) :
    recordWithin members (n + 1) first found s =
      recordWithin members n false ((key, v) :: found) (renderMembers ms ++ rest) := by
  have hread := hv _ (delimited_renderMembers ms rest)
  rw [recordWithin, hs]
  simp only [named, textBody_flatMap_escape, String.ofList_toList, hfind, hname, hnew,
    Option.isSome_none, Bool.false_eq_true, if_false, expectColon,
    skipBlanks_cons (c := ':') rfl, hread]

/-- The members behind the first ones are all found, and those found before are kept. -/
theorem recordWithin_renderMembers
    (h : ∀ p ∈ ms, ∃ m, (members.find? fun m => m.name == p.1) = some m ∧ m.name = p.1 ∧
      Reads m.read p.2)
    (hnodup : (ms.map Prod.fst).Nodup) {n : Nat} (hn : ms.length < n)
    {found : List (String × Json)} (hnew : ∀ p ∈ ms, found.lookup p.1 = none)
    (rest : List Char) :
    ∃ all, recordWithin members n false found (renderMembers ms ++ rest) =
        .ok (all, '\x7d' :: rest) ∧
      ∀ name, all.lookup name = (ms.lookup name).or (found.lookup name) := by
  induction ms generalizing n found with
  | nil =>
    rcases n with _ | n
    · exact absurd hn (Nat.not_lt_zero _)
    · exact ⟨found, rfl, fun name => rfl⟩
  | cons p ms ih =>
    obtain ⟨key, v⟩ := p
    obtain ⟨hkey, htail⟩ : key ∉ ms.map Prod.fst ∧ (ms.map Prod.fst).Nodup :=
      List.nodup_cons.1 hnodup
    obtain ⟨m, hfind, hname, hv⟩ := h _ List.mem_cons_self
    have hnext : ∀ p ∈ ms, ((key, v) :: found).lookup p.1 = none := by
      intro p hp
      have hne : p.1 ≠ key := by
        rintro rfl
        exact hkey (List.mem_map_of_mem hp)
      rw [List.lookup_cons, beq_eq_false_iff_ne.2 hne]
      exact hnew p (List.mem_cons_of_mem _ hp)
    rcases n with _ | n
    · exact absurd hn (Nat.not_lt_zero _)
    · obtain ⟨all, hread, hall⟩ := ih (fun q hq => h q (List.mem_cons_of_mem _ hq)) htail
        (Nat.lt_of_succ_lt_succ hn) hnext
      refine ⟨all, ?_, ?_⟩
      · rw [renderMembers_cons_append,
          recordWithin_named rfl hfind hname (hnew _ List.mem_cons_self) hv]
        exact hread
      · intro name
        rw [hall, List.lookup_cons, List.lookup_cons]
        by_cases hne : name = key
        · rw [hne, beq_self_eq_true, lookup_eq_none hkey]
          rfl
        · rw [beq_eq_false_iff_ne.2 hne]

/-- **A record is read back** if its members are. -/
theorem Reads.record (h : ReadsMembers members ms)
    (hnodup : (members.map Member.name).Nodup) : Reads (readRecord members) (object ms) := by
  intro rest _
  have hms : ∀ p ∈ ms, ∃ m, (members.find? fun m => m.name == p.1) = some m ∧ m.name = p.1 ∧
      Reads m.read p.2 := by
    intro p hp
    obtain ⟨m, hm, hname, hread⟩ := h.exists_mem p hp
    exact ⟨m, hname ▸ find?_name hnodup hm, hname, hread⟩
  have hdistinct : (ms.map Prod.fst).Nodup := h.sublist.nodup hnodup
  rcases ms with _ | ⟨⟨key, v⟩, ms⟩
  · have harrange : arrange members [] = .ok [] := h.arrange_eq hnodup fun _ _ => rfl
    have hread : recordWithin members (('\x7d' :: rest).length + 1) true [] ('\x7d' :: rest) =
        .ok ([], '\x7d' :: rest) := rfl
    rw [render, List.cons_append, readRecord, skipBlanks_cons (by decide)]
    simp only [List.cons_append, List.nil_append, hread, harrange]
    rfl
  · have hlen : ((key, v) :: ms).length <
        ('"' :: named key v (renderMembers ms ++ rest)).length + 1 :=
      Nat.succ_lt_succ (Nat.lt_succ_of_lt (length_lt_length_named key v ms rest))
    have hnew : ∀ p ∈ (key, v) :: ms, ([] : List (String × Json)).lookup p.1 = none :=
      fun _ _ => rfl
    obtain ⟨all, hall, hlookup⟩ := recordWithin_renderMembers hms hdistinct hlen hnew rest
    have harrange : arrange members all = .ok ((key, v) :: ms) :=
      h.arrange_eq hnodup fun m _ => by rw [hlookup, List.lookup_nil, Option.or_none]
    obtain ⟨m, hfind, hname, hv⟩ := hms _ List.mem_cons_self
    -- the first member differs from the others in that no comma stands before it
    have hread : recordWithin members (('"' :: named key v (renderMembers ms ++ rest)).length + 1)
        true [] ('"' :: named key v (renderMembers ms ++ rest)) = .ok (all, '\x7d' :: rest) := by
      rw [renderMembers_cons_append, recordWithin_named rfl hfind hname rfl hv] at hall
      rw [recordWithin_named rfl hfind hname rfl hv]
      exact hall
    rw [render_object_cons_append, readRecord, skipBlanks_cons (by decide)]
    simp only [hread, harrange]
    rfl

end

end Json
end Replication

import Replication.Proofs.Json.Shape
import Replication.Settings.Basic

/-!
# Settings come back from their JSON

Settings are written as an object of sections, and each section as an object of its members.
A topic or a subject that is not set is not written at all, and everything else is.  Members
may be left out of such a text, by hand or because they did not exist yet; those that must be
there apart, they then have their defaults.

So the statement is about a text from which any members have been left out: what is read from
it are the settings with these members at their defaults and all others as they were.  Nothing
left out, the settings themselves come back.  As for messages, there are two parts: the value
that is written fits the shape of settings, also when it is thinned out, and the settings come
out of it.

* `Json.Shape.Fits.keeping`: a record still fits its shape without members that may be left out.
* `Settings.settings_come_back`: the statement, for all settings.
-/

namespace Replication

namespace Json

/-- An object of which only the members with certain names are given. -/
def keeping (p : String → Bool) : Json → Json
  | object ms => object (ms.filter fun m => p m.1)
  | v => v

theorem keeping_all (v : Json) : v.keeping (fun _ => true) = v := by
  cases v with
  | object ms => rw [keeping, List.filter_eq_self.2 fun _ _ => rfl]
  | _ => rfl

/-- An object of objects of which only some members are given, told by the names that lead to
them. -/
def thinned (given : List String → Bool) : Json → Json
  | object ms =>
      object ((ms.filter fun m => given [m.1]).map fun m =>
        (m.1, m.2.keeping fun name => given [m.1, name]))
  | v => v

theorem lookup_filter_name (p : String → Bool) (ms : List (String × Json)) (name : String) :
    (ms.filter fun m => p m.1).lookup name = if p name then ms.lookup name else none := by
  induction ms with
  | nil => rw [List.filter_nil, List.lookup_nil, ite_self]
  | cons m ms ih =>
    obtain ⟨key, v⟩ := m
    by_cases hname : name = key
    · subst hname
      by_cases hp : p name = true
      · rw [List.filter_cons, if_pos hp, List.lookup_cons_self, List.lookup_cons_self, if_pos hp]
      · rw [List.filter_cons, if_neg hp, ih, if_neg hp, if_neg hp]
    · have hskip : ((key, v) :: ms).lookup name = ms.lookup name := by
        rw [List.lookup_cons, beq_eq_false_iff_ne.2 hname]
      rw [hskip, ← ih, List.filter_cons]
      split
      · rw [List.lookup_cons, beq_eq_false_iff_ne.2 hname]
      · rfl

theorem member?_keeping (p : String → Bool) (v : Json) (name : String) :
    (v.keeping p).member? name = if p name then v.member? name else none := by
  cases v with
  | object ms =>
    rw [keeping, member?, member?, lookup_filter_name]
    cases p name <;> rfl
  | _ =>
    rw [keeping, member?, ite_self]
    all_goals exact fun ms h => by cases h

namespace Shape

theorem FitsMembers.filter {p : String → Bool} {members : List (String × Bool × Shape)}
    {ms : List (String × Json)} : FitsMembers members ms →
    (∀ m ∈ members, m.2.1 = true → p m.1 = true) →
      FitsMembers members (ms.filter fun m => p m.1)
  | .nil, _ => .nil
  | @FitsMembers.given name required _ _ _ _ hv h, hp => by
    obtain ⟨hname, htail⟩ := List.forall_mem_cons.1 hp
    rw [List.filter_cons]
    split
    · exact .given hv (h.filter htail)
    · next hnot =>
      cases required with
      | true => exact absurd (hname rfl) hnot
      | false => exact .leftOut (h.filter htail)
  | .leftOut h, hp => .leftOut (h.filter (List.forall_mem_cons.1 hp).2)

/-- **A record still fits its shape** when members are left out that may be. -/
theorem Fits.keeping {p : String → Bool} {members : List (String × Bool × Shape)} {v : Json}
    (h : Fits (.record members) v)
    (hp : ∀ m ∈ members, m.2.1 = true → p m.1 = true) :
    Fits (.record members) (v.keeping p) := by
  cases h with
  | record h hnodup => exact .record (h.filter hp) hnodup

end Shape

end Json

namespace Settings

open Json.Shape (Fits FitsMembers)

variable {p : String → Bool}

/-! ## The sections -/

theorem SourceCatalog.fits_keeping (c : SourceCatalog) (hname : p "name" = true) :
    shape.Fits (c.toJson.keeping p) := by
  refine Fits.keeping (.record (.given (.text _) .nil) (by decide)) ?_
  simp [Json.Shape.needed, hname]

/-- The section comes out of its value. -/
theorem SourceCatalog.ofJson?_keeping (c : SourceCatalog) (hname : p "name" = true) :
    ofJson? (c.toJson.keeping p) = some c := by
  simp only [ofJson?, Json.member?_keeping, hname, if_true]
  rfl

/-- The section with the members that are not given at their defaults. -/
def ReplicaCatalog.restricted (c : ReplicaCatalog) (p : String → Bool) : ReplicaCatalog :=
  { c with metastoreUris := if p "metastore_uris" then c.metastoreUris else "" }

theorem ReplicaCatalog.fits_keeping (c : ReplicaCatalog) (hname : p "name" = true) :
    shape.Fits (c.toJson.keeping p) := by
  refine Fits.keeping (.record (.given (.text _) (.given (.text _) .nil)) (by decide)) ?_
  simp [Json.Shape.needed, Json.Shape.defaulted, hname]

theorem ReplicaCatalog.ofJson?_keeping (c : ReplicaCatalog) (hname : p "name" = true) :
    ofJson? (c.toJson.keeping p) = some (c.restricted p) := by
  simp only [ofJson?, Json.member?_keeping, hname, if_true, restricted]
  cases p "metastore_uris" <;> rfl

/-- The section with the members that are not given at their defaults. -/
def Copier.restricted (c : Copier) (p : String → Bool) : Copier :=
  { c with splits := if p "num_splits" then c.splits else defaultSplits }

theorem Copier.fits_keeping (c : Copier) (hpath : p "listing_path" = true) :
    shape.Fits (c.toJson.keeping p) := by
  have hsplits : c.splits.toNat ≤ Word.max32 := Nat.le_of_lt_succ c.splits.toNat_lt
  have hmax : c.splits.toNat ≤ Word.max64 := Nat.le_trans hsplits (by decide)
  refine Fits.keeping (.record (.given (.text _) (.given (.number hsplits hmax) .nil))
    (by decide)) ?_
  simp [Json.Shape.needed, Json.Shape.defaulted, hpath]

theorem Copier.ofJson?_keeping (c : Copier) (hpath : p "listing_path" = true) :
    ofJson? (c.toJson.keeping p) = some (c.restricted p) := by
  have hsplits : c.toJson.member? "num_splits" = some (.number c.splits.toNat) := rfl
  simp only [ofJson?, Json.member?_keeping, hpath, if_true, restricted, hsplits]
  cases p "num_splits" with
  | false => rfl
  | true =>
    simp only [if_true, Option.bind_some, Json.asNumber?, Option.map_some, Option.getD_some,
      UInt32.ofNat_toNat]
    rfl

/-- The section with the members that are not given at their defaults. -/
def Listener.restricted (l : Listener) (p : String → Bool) : Listener where
  topic := if p "topic" then l.topic else none
  startTopic := if p "start_topic" then l.startTopic else none
  successTopic := if p "success_topic" then l.successTopic else none
  failTopic := if p "fail_topic" then l.failTopic else none
  subject := if p "subject" then l.subject else none
  headers := if p "headers" then l.headers else .none
  maxMessageSize :=
    if p "max_message_size_bytes" then l.maxMessageSize else defaultMaxMessageSize

theorem Listener.fits_keeping (l : Listener) (p : String → Bool) :
    shape.Fits (l.toJson.keeping p) := by
  have hsize : l.maxMessageSize.toNat ≤ Word.max64 := Nat.le_of_lt_succ l.maxMessageSize.toNat_lt
  rw [toJson, members]
  simp only [List.append_assoc]
  refine Fits.keeping (.record ?_ (by decide)) ?_
  · iterate 5 refine .optionalMember Fits.text _ ?_
    exact .given (.dictionary _) (.given (.number hsize hsize) .nil)
  · simp [Json.Shape.optional, Json.Shape.defaulted]

theorem Listener.member?_toJson (l : Listener) (name : String) :
    l.toJson.member? name = l.members.lookup name := by
  rw [toJson]
  refine Json.member?_object ?_ name
  have hnull : ∀ s : String, Json.text s ≠ .null := fun s h => by cases h
  simp only [members, List.forall_mem_append]
  refine ⟨⟨⟨⟨⟨?_, ?_⟩, ?_⟩, ?_⟩, ?_⟩, ?_⟩
  case refine_6 => simp [Json.dictionary]
  all_goals exact Json.ne_null_of_mem_optionalMember hnull _

/-- **The section comes out of its value**, with the members that are not given at their
defaults. -/
theorem Listener.ofJson?_keeping (l : Listener) (p : String → Bool) :
    ofJson? (l.toJson.keeping p) = some (l.restricted p) := by
  have hwritten : ∀ o : Option String, (o.map Json.text).bind Json.asText? = o :=
    Json.bind_map fun _ => rfl
  have htext : ∀ (b : Bool) (o : Option String),
      (if b then o.map Json.text else none).bind Json.asText? = if b then o else none := by
    intro b o
    cases b with
    | false => rfl
    | true => exact hwritten o
  have hheaders : ∀ b : Bool, Headers.ofList
      (((if b then some (Json.dictionary l.headers.pairs) else none).bind
        Json.asDictionary?).getD []) = if b then l.headers else .none := by
    intro b
    cases b with
    | false => rfl
    | true =>
      rw [if_pos rfl, Option.bind_some, Json.asDictionary?_dictionary, Option.getD_some,
        Headers.ofList_pairs, if_pos rfl]
  have hsize : ∀ b : Bool,
      (Option.map UInt64.ofNat ((if b then some (Json.number l.maxMessageSize.toNat) else none).bind
        Json.asNumber?)).getD defaultMaxMessageSize =
      if b then l.maxMessageSize else defaultMaxMessageSize := by
    intro b
    cases b with
    | false => rfl
    | true =>
      rw [if_pos rfl, Option.bind_some, Json.asNumber?, Option.map_some, Option.getD_some,
        UInt64.ofNat_toNat, if_pos rfl]
  -- every member is found under its name, if it is given
  simp only [ofJson?, Json.member?_keeping, member?_toJson, members, List.append_assoc,
    List.lookup_append, List.lookup_cons, List.lookup_nil, Json.lookup_optionalMember,
    String.reduceBEq, BEq.rfl, Bool.false_eq_true, ↓reduceIte, Option.or_none, Option.none_or,
    htext, hheaders, hsize, restricted]

/-! ## All sections -/

/-- The members that must be there, by the names that lead to them. -/
def neededPaths : List (List String) :=
  [["source_catalog"], ["source_catalog", "name"], ["replica_catalog"],
    ["replica_catalog", "name"], ["copier"], ["copier", "listing_path"]]

/-- The settings with the members that are not given at their defaults. -/
def restricted (s : Settings) (given : List String → Bool) : Settings where
  sourceCatalog := s.sourceCatalog
  replicaCatalog := s.replicaCatalog.restricted fun name => given ["replica_catalog", name]
  copier := s.copier.restricted fun name => given ["copier", name]
  listener :=
    if given ["listener"] then s.listener.restricted fun name => given ["listener", name] else {}

theorem thinned_toJson (s : Settings) {given : List String → Bool}
    (h : ∀ path ∈ neededPaths, given path = true) :
    s.toJson.thinned given =
      .object
        ([("source_catalog", s.sourceCatalog.toJson.keeping fun n => given ["source_catalog", n]),
          ("replica_catalog",
            s.replicaCatalog.toJson.keeping fun n => given ["replica_catalog", n]),
          ("copier", s.copier.toJson.keeping fun n => given ["copier", n])]
          ++ if given ["listener"] then
            [("listener", s.listener.toJson.keeping fun n => given ["listener", n])]
          else []) := by
  have hsource : given ["source_catalog"] = true := h _ (by decide)
  have hreplica : given ["replica_catalog"] = true := h _ (by decide)
  have hcopier : given ["copier"] = true := h _ (by decide)
  simp only [toJson, Json.thinned, List.filter_cons, List.filter_nil, hsource, hreplica, hcopier,
    if_true]
  split <;> rfl

theorem fits_thinned (s : Settings) {given : List String → Bool}
    (h : ∀ path ∈ neededPaths, given path = true) : shape.Fits (s.toJson.thinned given) := by
  have hlistener : FitsMembers [Json.Shape.defaulted "listener" Listener.shape]
      (if given ["listener"] then
        [("listener", s.listener.toJson.keeping fun n => given ["listener", n])] else []) := by
    split
    · exact .given (s.listener.fits_keeping _) .nil
    · exact .leftOut .nil
  rw [thinned_toJson s h, shape]
  refine .record ?_ (by decide)
  refine .given (s.sourceCatalog.fits_keeping (h _ (by decide))) ?_
  refine .given (s.replicaCatalog.fits_keeping (h _ (by decide))) ?_
  exact .given (s.copier.fits_keeping (h _ (by decide))) hlistener

/-- **The settings come out of their value**, with the members that are not given at their
defaults. -/
theorem ofJson?_thinned (s : Settings) {given : List String → Bool}
    (h : ∀ path ∈ neededPaths, given path = true) :
    ofJson? (s.toJson.thinned given) = some (s.restricted given) := by
  -- each section is found under its name
  have hsource : ((s.toJson.thinned given).member? "source_catalog").bind SourceCatalog.ofJson? =
      some s.sourceCatalog := by
    rw [thinned_toJson s h]
    exact s.sourceCatalog.ofJson?_keeping (h _ (by decide))
  have hreplica : ((s.toJson.thinned given).member? "replica_catalog").bind
      ReplicaCatalog.ofJson? = some (s.restricted given).replicaCatalog := by
    rw [thinned_toJson s h]
    exact s.replicaCatalog.ofJson?_keeping (h _ (by decide))
  have hcopier : ((s.toJson.thinned given).member? "copier").bind Copier.ofJson? =
      some (s.restricted given).copier := by
    rw [thinned_toJson s h]
    exact s.copier.ofJson?_keeping (h _ (by decide))
  have hlistener : (((s.toJson.thinned given).member? "listener").bind
      Listener.ofJson?).getD {} = (s.restricted given).listener := by
    rw [thinned_toJson s h, restricted]
    cases given ["listener"] with
    | true => exact congrArg (Option.getD · {}) (s.listener.ofJson?_keeping _)
    | false => rfl
  rw [ofJson?, hsource, hreplica, hcopier, hlistener]
  rfl

theorem restricted_all (s : Settings) : s.restricted (fun _ => true) = s := rfl

theorem thinned_all (s : Settings) : s.toJson.thinned (fun _ => true) = s.toJson := by
  simp only [thinned_toJson s fun _ _ => rfl, Json.keeping_all]
  rfl

theorem decode_thinned (s : Settings) {given : List String → Bool}
    (h : ∀ path ∈ neededPaths, given path = true) :
    decode (s.toJson.thinned given).toText = .ok (s.restricted given) :=
  Json.decode_toText (s.fits_thinned h) (s.ofJson?_thinned h)

theorem decode_toText_toJson (s : Settings) : decode s.toJson.toText = .ok s := by
  have h : decode (s.toJson.thinned fun _ => true).toText = .ok (s.restricted fun _ => true) :=
    s.decode_thinned fun _ _ => rfl
  rwa [thinned_all, restricted_all] at h

/-- **Settings come back from their JSON.**  What is decoded from the text of settings are the
settings: every phase goes to the same topic as before or to none, the check has the same
outcome, and no other settings have this text.  When members are left out of the text, they
have their defaults, and all other members are as they were. -/
theorem settings_come_back (s : Settings) :
    (∃ t, decode s.toJson.toText = .ok t ∧ t = s ∧
      (∀ p, t.listener.ownTopic? p = s.listener.ownTopic? p ∧
        t.listener.topic? p = s.listener.topic? p) ∧ t.check = s.check) ∧
    (∀ t : Settings, t.toJson.toText = s.toJson.toText → t = s) ∧
    ∀ given : List String → Bool, (∀ path ∈ neededPaths, given path = true) →
      decode (s.toJson.thinned given).toText = .ok (s.restricted given) := by
  refine ⟨⟨s, s.decode_toText_toJson, rfl, fun p => ⟨rfl, rfl⟩, rfl⟩, ?_, ?_⟩
  · intro t htext
    have ht := t.decode_toText_toJson
    rw [htext, s.decode_toText_toJson] at ht
    exact (Except.ok.inj ht).symm
  · intro given h
    exact s.decode_thinned h

/-- Settings with a count of zero, an empty subject and one topic of three, and their text
without the headers and without the addresses of the catalog.  Neither the zero nor the empty
text gives way to a default. -/
theorem zero_is_no_default :
    ∃ s : Settings, s.copier.splits = 0 ∧ s.listener.subject = some "" ∧
      s.listener.ownTopic? .start = none ∧ s.listener.headers ≠ .none ∧
      decode s.toJson.toText = .ok s ∧
      decode (s.toJson.thinned fun path => path != ["listener", "headers"] &&
          path != ["replica_catalog", "metastore_uris"]).toText =
        .ok { s with
          replicaCatalog := { s.replicaCatalog with metastoreUris := "" }
          listener := { s.listener with headers := .none } } := by
  obtain ⟨⟨t, ht, heq, -⟩, -, hthinned⟩ := settings_come_back
    ⟨⟨"\n"⟩, ⟨"\"", "thrift://é"⟩, ⟨"/l", 0⟩,
      { failTopic := some "f", subject := some "", headers := ⟨[("", "😀")], by decide⟩ }⟩
  rw [heq] at ht
  refine ⟨_, rfl, rfl, rfl, ?_, ht, hthinned _ (by decide)⟩
  decide

end Settings
end Replication

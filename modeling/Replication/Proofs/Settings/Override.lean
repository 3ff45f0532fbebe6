import Replication.Proofs.Settings.Naming
import Replication.Settings.Sources

/-!
# Which layer a setting comes from

Settings are read from a base file, from a file for the environment and from variables.  When
the layers agree on what is a table, they say together, in each place, what the last of them
says that has a leaf there.  So to set one leaf more, by a variable or in the file for the
environment, changes this leaf and no other one.

No variable makes up for a file: where one of the two is missing or is no YAML, nothing is read.

* `Sources.leaf?_tree`: the leaves of the tree that is brought into the shape asked for.
* `Sources.layers_override_leaf_by_leaf`: what this means for a change of one leaf, and for files
  that cannot be read.
-/

namespace Replication
namespace Settings

open Value (table)

/-! ## Trees that files hold -/

namespace Value

mutual

theorem hasDistinctKeys_of_ofNode? {node : Yaml.Node} {v : Value} (h : ofNode? node = some v) :
    v.HasDistinctKeys := by
  cases node with
  | mapping es =>
    rw [ofNode?] at h
    obtain ⟨fs, hfs, rfl⟩ := Option.map_eq_some_iff.1 h
    exact .table (Keyed.ofList fs).nodup (Keyed.forall_ofList (hasDistinctKeys_of_ofEntries? hfs))
  | sequence vs =>
    rw [ofNode?] at h
    obtain ⟨ws, -, rfl⟩ := Option.map_eq_some_iff.1 h
    exact .leaf rfl
  | real s =>
    rw [ofNode?] at h
    obtain ⟨x, -, rfl⟩ := Option.map_eq_some_iff.1 h
    exact .leaf rfl
  | _ =>
    rw [ofNode?] at h
    obtain rfl := Option.some.inj h
    exact .leaf rfl

theorem hasDistinctKeys_of_ofEntries? {es : List (Yaml.Node × Yaml.Node)}
    {fs : List (String × Value)} (h : ofEntries? es = some fs) :
    ∀ f ∈ fs, f.2.HasDistinctKeys := by
  cases es with
  | nil =>
    rw [ofEntries?] at h
    obtain rfl := Option.some.inj h
    intro f hf
    cases hf
  | cons e es =>
    obtain ⟨k, node⟩ := e
    simp only [ofEntries?, Option.pure_def, Option.bind_eq_bind, Option.bind_eq_some_iff] at h
    obtain ⟨key, -, v, hv, gs, hgs, hfs⟩ := h
    obtain rfl := Option.some.inj hfs
    exact List.forall_mem_cons.2
      ⟨hasDistinctKeys_of_ofNode? hv, hasDistinctKeys_of_ofEntries? hgs⟩

end

end Value

namespace Sources

variable {s : Sources} {e : Environment} {base own : List (String × Value)}
  {listKeys : List String} {file : String} {es : List (String × Value)}

theorem read_eq_ok {text : String} {found : Option Yaml.Node}
    (h : (Yaml.read text).toOption = some found) : Yaml.read text = .ok found := by
  cases hread : Yaml.read text with
  | error fault =>
    rw [hread] at h
    cases h
  | ok found' =>
    rw [hread] at h
    rw [Option.some.inj h]

theorem fileLayer_of_table {text : String} (node : Yaml.Node) (htext : s.text? file = some text)
    (hread : (Yaml.read text).toOption = some (some node))
    (hnode : Value.ofNode? node = some (table es)) : s.fileLayer file = .ok es := by
  rw [fileLayer, htext]
  simp only [read_eq_ok hread, hnode]

theorem fileLayer_of_nothing {text : String} (htext : s.text? file = some text)
    (hread : (Yaml.read text).toOption = some none) : s.fileLayer file = .ok [] := by
  rw [fileLayer, htext]
  simp only [read_eq_ok hread]

/-- The layer of a file has each of its keys once. -/
theorem hasDistinctKeys_of_fileLayer (h : s.fileLayer file = .ok es) :
    (table es).HasDistinctKeys := by
  rw [fileLayer] at h
  split at h
  · cases h
  · split at h
    · cases h
    · obtain rfl := Except.ok.inj h
      exact .table List.nodup_nil fun e he => by cases he
    · split at h
      · next hnode =>
        obtain rfl := Except.ok.inj h
        exact Value.hasDistinctKeys_of_ofNode? hnode
      · cases h

/-! ## The tree of settings -/

/-- The tree of settings that the layers make up. -/
def tree (listKeys : List String) (s : Sources) (e : Environment) : Except Fault Value :=
  (s.layers listKeys e).map merged

/-- A tree brought into a shape and read as a value of another type. -/
def shaped {α : Type} (shape : Json.Shape) (of : Json → Option α) (t : Value) : Except Fault α :=
  match (t.toShape? shape).bind of with
  | some a => .ok a
  | none => .error .mismatched

theorem read_eq {α : Type} (shape : Json.Shape) (of : Json → Option α) (listKeys : List String)
    (s : Sources) (e : Environment) :
    s.read shape of listKeys e = (s.tree listKeys e).bind (shaped shape of) := by
  rw [read, tree]
  cases s.layers listKeys e <;> rfl

/-- The leaf of the last of three layers that has one in a place. -/
def latest? (listKeys : List String) (base own : List (String × Value))
    (vars : List (String × String)) (path : List String) : Option Value :=
  (Variable.leaf? listKeys vars path).or (((table own).leaf? path).or ((table base).leaf? path))

/-- Sources whose layers can be told apart: the keys in them are plain, each variable sets a leaf
of its own, and what is a table in one layer is no leaf in another. -/
structure Orderly (s : Sources) (e : Environment) (base own : List (String × Value)) : Prop where
  base_eq : s.fileLayer baseFile = .ok base
  own_eq : s.fileLayer (fileOf e) = .ok own
  baseKeys : (table base).HasPlainKeys
  ownKeys : (table own).HasPlainKeys
  varKeys : Variable.HavePlainKeys s.vars
  apart : (Variable.paths s.vars).Pairwise Apart
  ownAgrees : Agree (table own).outline (table base).outline
  varsAgree : Agree (outlineOf (Variable.paths s.vars)) (table base).outline
  varsAgreeWithOwn : Agree (outlineOf (Variable.paths s.vars)) (table own).outline

theorem wellKeyed_of_fileLayer (h : s.fileLayer file = .ok es) (hkeys : (table es).HasPlainKeys) :
    (table es).WellKeyed :=
  ⟨hkeys.lower, hasDistinctKeys_of_fileLayer h⟩

/-- **Leaf by leaf** the last layer that has a leaf in a place is seen there. -/
theorem Orderly.leaf?_tree (h : s.Orderly e base own) (listKeys : List String) :
    ∃ t, s.tree listKeys e = .ok t ∧
      ∀ path, t.leaf? path = latest? listKeys base own s.vars path := by
  have hbase := wellKeyed_of_fileLayer h.base_eq h.baseKeys
  have hown := wellKeyed_of_fileLayer h.own_eq h.ownKeys
  have hfirst : ∀ path, ((table []).merge base).standing path = (table base).standing path := by
    intro path
    rw [Value.standing_merge rfl hbase (Value.agree_empty base), Value.or_standing_empty]
  have houtline : ((table []).merge base).outline = (table base).outline := by
    funext path
    rw [Value.outline_eq, Value.outline_eq, hfirst]
  have htable := Value.isTable_merge (t := table []) rfl base
  have hagree : Agree (table own).outline ((table []).merge base).outline :=
    houtline ▸ h.ownAgrees
  have hplaces := Variable.apart_places h.varKeys h.apart
  have hvars : Agree (outlineOf (Variable.places s.vars))
      (((table []).merge base).merge own).outline := by
    refine Value.agree_merge htable hown hagree ?_ ?_
    · exact Variable.agree_places h.varKeys h.apart h.ownKeys h.varsAgreeWithOwn
    · rw [houtline]
      exact Variable.agree_places h.varKeys h.apart h.baseKeys h.varsAgree
  refine ⟨merged [base, own, Variable.layer listKeys s.vars], ?_, fun path => ?_⟩
  · rw [tree, layers, h.base_eq, h.own_eq]
    rfl
  · rw [merged, List.foldl_cons, List.foldl_cons, List.foldl_cons, List.foldl_nil,
      Value.overlay_eq_merge h.baseKeys.entries.1, Value.overlay_eq_merge h.ownKeys.entries.1,
      Variable.leaf?_overlay_layer (Value.isTable_merge htable own) h.varKeys hplaces hvars,
      Value.leaf?_merge htable hown hagree, Value.leaf?_eq ((table []).merge base), hfirst,
      ← Value.leaf?_eq, latest?]

/-- Without one of the variables the sources are as orderly as with it. -/
theorem Orderly.of_sublist {vars : List (String × String)} (h : s.Orderly e base own)
    (hsub : vars.Sublist s.vars) : Orderly { s with vars := vars } e base own where
  base_eq := h.base_eq
  own_eq := h.own_eq
  baseKeys := h.baseKeys
  ownKeys := h.ownKeys
  varKeys := fun v hv => h.varKeys v (hsub.subset hv)
  apart := h.apart.sublist (hsub.filterMap _)
  ownAgrees := h.ownAgrees
  varsAgree := fun path a ha =>
    h.varsAgree path a (outlineOf_of_sublist (hsub.filterMap _) h.apart ha)
  varsAgreeWithOwn := fun path a ha =>
    h.varsAgreeWithOwn path a (outlineOf_of_sublist (hsub.filterMap _) h.apart ha)

/-- With a single variable it is enough to look at what the files have on the way to its leaf. -/
theorem orderly_of_path {p : List String} (hbase : s.fileLayer baseFile = .ok base)
    (hown : s.fileLayer (fileOf e) = .ok own) (hbaseKeys : (table base).HasPlainKeys)
    (hownKeys : (table own).HasPlainKeys) (hvarKeys : Variable.HavePlainKeys s.vars)
    (hpaths : Variable.paths s.vars = [p])
    (hagree : Agree (table own).outline (table base).outline)
    (hbaseWay : ∀ q ∈ p.inits, ∀ b ∈ (table base).outline q, b = false ↔ q = p)
    (hownWay : ∀ q ∈ p.inits, ∀ b ∈ (table own).outline q, b = false ↔ q = p) :
    s.Orderly e base own := by
  have hway : ∀ {n : List String → Option Bool}, (∀ q ∈ p.inits, ∀ b ∈ n q, b = false ↔ q = p) →
      Agree (outlineOf (Variable.paths s.vars)) n := by
    intro n hn
    rw [hpaths, agree_outlineOf_iff (List.pairwise_singleton _ _)]
    exact List.forall_mem_singleton.2 hn
  have hapart : (Variable.paths s.vars).Pairwise Apart := by
    rw [hpaths]
    exact List.pairwise_singleton _ _
  exact ⟨hbase, hown, hbaseKeys, hownKeys, hvarKeys, hapart, hagree, hway hbaseWay, hway hownWay⟩

/-! ## One leaf more -/

/-- A variable more sets the leaf in its place. -/
theorem Orderly.leaf?_insert {before behind : List (String × String)} {v : String × String}
    {p : List String} (h : s.Orderly e base own) (hvars : s.vars = before ++ v :: behind)
    (hv : Variable.place? v.1 = some p) (listKeys : List String) :
    ∃ t u, s.tree listKeys e = .ok t ∧
      { s with vars := before ++ behind }.tree listKeys e = .ok u ∧
      t.leaf? p = some (Variable.value listKeys (Path.dotted p) v.2) ∧
      ∀ path, path ≠ p → t.leaf? path = u.leaf? path := by
  have hsub : (before ++ behind).Sublist s.vars :=
    hvars ▸ (List.sublist_cons_self v behind).append_left before
  have hplaces := Variable.apart_places h.varKeys h.apart
  have hinsert := Variable.leaf?_insert (hvars ▸ hplaces) hv listKeys
  obtain ⟨t, ht, htleaf⟩ := h.leaf?_tree listKeys
  obtain ⟨u, hu, huleaf⟩ := (h.of_sublist hsub).leaf?_tree listKeys
  refine ⟨t, u, ht, hu, ?_, fun path hpath => ?_⟩
  · rw [htleaf, latest?, hvars, hinsert, if_pos rfl, Option.some_or]
  · rw [htleaf, huleaf, latest?, latest?, hvars, hinsert, if_neg hpath]

/-- A leaf more in the file for the environment is seen in its place, unless a variable sets it. -/
theorem Orderly.leaf?_entry {s' : Sources} {own' : List (String × Value)} {p : List String}
    {x : Value} (h : s.Orderly e base own) (h' : s'.Orderly e base own') (hvars : s'.vars = s.vars)
    (hp : (table own').leaf? p = some x)
    (hothers : ∀ path, path ≠ p → (table own').leaf? path = (table own).leaf? path)
    (listKeys : List String) :
    ∃ t u, s.tree listKeys e = .ok t ∧ s'.tree listKeys e = .ok u ∧
      u.leaf? p = (Variable.leaf? listKeys s.vars p).or (some x) ∧
      ∀ path, path ≠ p → u.leaf? path = t.leaf? path := by
  obtain ⟨t, ht, htleaf⟩ := h.leaf?_tree listKeys
  obtain ⟨u, hu, huleaf⟩ := h'.leaf?_tree listKeys
  refine ⟨t, u, ht, hu, ?_, fun path hpath => ?_⟩
  · rw [huleaf, latest?, hvars, hp, Option.some_or]
  · rw [huleaf, htleaf, latest?, latest?, hvars, hothers path hpath]

/-! ## Files that cannot be read -/

/-- A file cannot be read: it is missing, or what it holds is no YAML. -/
def Unreadable (s : Sources) (file : String) : Prop :=
  ∀ text ∈ s.text? file, ∃ fault, Yaml.read text = .error fault

theorem fileLayer_of_unreadable (h : s.Unreadable file) :
    ∃ fault, s.fileLayer file = .error fault := by
  rw [fileLayer]
  cases htext : s.text? file with
  | none => exact ⟨_, rfl⟩
  | some text =>
    obtain ⟨fault, hfault⟩ := h text htext
    simp only [hfault]
    exact ⟨_, rfl⟩

/-- **No variable makes up for a file.** -/
theorem read_of_unreadable (hfile : file ∈ [baseFile, fileOf e]) (h : s.Unreadable file) :
    ∃ fault, ∀ vars (α : Type) shape (of : Json → Option α) listKeys,
      { s with vars := vars }.read shape of listKeys e = .error fault := by
  obtain ⟨fault, hfault⟩ := fileLayer_of_unreadable h
  cases hbase : s.fileLayer baseFile with
  | error f =>
    refine ⟨f, fun vars α shape of listKeys => ?_⟩
    have hlayer : ({ s with vars := vars } : Sources).fileLayer baseFile = .error f := hbase
    rw [read, layers, hlayer]
    rfl
  | ok base =>
    refine ⟨fault, fun vars α shape of listKeys => ?_⟩
    have hlayer : ({ s with vars := vars } : Sources).fileLayer baseFile = .ok base := hbase
    have hown : ({ s with vars := vars } : Sources).fileLayer (fileOf e) = .error fault := by
      rcases List.mem_pair.1 hfile with rfl | rfl
      · rw [hbase] at hfault
        cases hfault
      · exact hfault
    rw [read, layers, hlayer, hown]
    rfl

/-! ## What is read of three layers -/

/-- **Layers override leaf by leaf.** What is read of orderly sources is a tree that has in each
place the leaf of the last layer that has one there.  A variable more, or a leaf more in the file
for the environment, changes the leaf in its place only.  And where a file cannot be read, nothing
is, whatever the variables are. -/
theorem layers_override_leaf_by_leaf :
    (∀ (s : Sources) (e : Environment) (base own : List (String × Value)) (listKeys : List String),
      s.Orderly e base own →
        (∃ t, s.tree listKeys e = .ok t ∧
          (∀ (α : Type) (shape : Json.Shape) (of : Json → Option α),
            s.read shape of listKeys e = shaped shape of t) ∧
          ∀ path, t.leaf? path = latest? listKeys base own s.vars path) ∧
        (∀ (before behind : List (String × String)) (v : String × String) (p : List String),
          s.vars = before ++ v :: behind → Variable.place? v.1 = some p →
            ∃ t u, s.tree listKeys e = .ok t ∧
              { s with vars := before ++ behind }.tree listKeys e = .ok u ∧
              t.leaf? p = some (Variable.value listKeys (Path.dotted p) v.2) ∧
              ∀ path, path ≠ p → t.leaf? path = u.leaf? path) ∧
        ∀ (s' : Sources) (own' : List (String × Value)) (p : List String) (x : Value),
          s'.Orderly e base own' → s'.vars = s.vars → (table own').leaf? p = some x →
            (∀ path, path ≠ p → (table own').leaf? path = (table own).leaf? path) →
              ∃ t u, s.tree listKeys e = .ok t ∧ s'.tree listKeys e = .ok u ∧
                u.leaf? p = (Variable.leaf? listKeys s.vars p).or (some x) ∧
                ∀ path, path ≠ p → u.leaf? path = t.leaf? path) ∧
    (∀ (s : Sources) (e : Environment), ∀ file ∈ [baseFile, fileOf e], s.Unreadable file →
      ∃ fault, ∀ vars (α : Type) shape (of : Json → Option α) listKeys,
        { s with vars := vars }.read shape of listKeys e = .error fault) := by
  refine ⟨fun s e base own listKeys h => ⟨?_, fun before behind v p hvars hv => ?_,
    fun s' own' p x h' hvars hp hothers => ?_⟩, fun s e file hfile h => ?_⟩
  · obtain ⟨t, ht, hleaf⟩ := h.leaf?_tree listKeys
    refine ⟨t, ht, fun α shape of => ?_, hleaf⟩
    rw [read_eq, ht]
    rfl
  · exact h.leaf?_insert hvars hv listKeys
  · exact h.leaf?_entry h' hvars hp hothers listKeys
  · exact read_of_unreadable hfile h

/-- Sources with a base file, a text for the file of the environment and a variable. -/
def sample (own : String) : Sources where
  files := [("base.yaml", "listener:\n  topic: t\n  subject: s\n"), ("dev.yaml", own)]
  vars := [("APP_LISTENER__FAIL_TOPIC", "f")]

/-- What the base file of the sample says. -/
def sampleBase : List (String × Value) :=
  [("listener", table [("topic", .text "t"), ("subject", .text "s")])]

/-- What the file of the environment may say. -/
def sampleOwn : List (String × Value) :=
  Value.nest (.text "u") ["listener", "topic"]

theorem paths_sample (own : String) :
    Variable.paths (sample own).vars = [["listener", "fail_topic"]] := by
  show Variable.paths [("APP_LISTENER__FAIL_TOPIC", "f")] = _
  decide +kernel

/-- The sample is orderly if what the file of the environment says fits in. -/
theorem orderly_sample {own : String} {es : List (String × Value)}
    (hown : (sample own).fileLayer (fileOf .dev) = .ok es) (hkeys : (table es).HasPlainKeys)
    (hagree : Agree (table es).outline (table sampleBase).outline)
    (hway : ∀ q ∈ ["listener", "fail_topic"].inits, ∀ b ∈ (table es).outline q,
      b = false ↔ q = ["listener", "fail_topic"]) :
    (sample own).Orderly .dev sampleBase es := by
  have hbase : (sample own).fileLayer baseFile = .ok sampleBase :=
    fileLayer_of_table
      (.mapping
        [(.text "listener", .mapping [(.text "topic", .text "t"), (.text "subject", .text "s")])])
      rfl (by decide +kernel) rfl
  have hbaseKeys : (table sampleBase).HasPlainKeys := by
    refine .table (by decide +kernel) (List.forall_mem_singleton.2 ?_)
    refine .table (by decide +kernel) fun e he => .leaf ?_
    rcases List.mem_pair.1 he with rfl | rfl <;> rfl
  have hvarKeys : Variable.HavePlainKeys [("APP_LISTENER__FAIL_TOPIC", "f")] := by
    unfold Variable.HavePlainKeys
    decide +kernel
  exact orderly_of_path hbase hown hbaseKeys hkeys hvarKeys (paths_sample own) hagree
    (by decide +kernel) hway

theorem orderly_sample_empty : (sample "").Orderly .dev sampleBase [] :=
  orderly_sample (fileLayer_of_nothing rfl (by decide +kernel))
    (.table (fun e he => by cases he) fun e he => by cases he)
    (Value.agree_empty sampleBase).symm (by decide +kernel)

theorem orderly_sample_topic :
    (sample "listener:\n  topic: u\n").Orderly .dev sampleBase sampleOwn := by
  refine orderly_sample
    (fileLayer_of_table (.mapping [(.text "listener", .mapping [(.text "topic", .text "u")])])
      rfl (by decide +kernel) rfl)
    (.table (by decide +kernel) (List.forall_mem_singleton.2
      (.table (by decide +kernel) (List.forall_mem_singleton.2 (.leaf rfl))))) ?_
    (by decide +kernel)
  rw [sampleOwn, Value.outline_nest rfl (List.cons_ne_nil _ _),
    agree_outlineOf_iff (List.pairwise_singleton _ _)]
  decide +kernel

/-- Topics of three layers: the file of the environment overrides the base file, the variable sets
a topic of its own, and the subject stays.  Without files there are no settings. -/
theorem topics_of_three_layers :
    (∃ t, (sample "listener:\n  topic: u\n").tree [] .dev = .ok t ∧
      t.leaf? ["listener", "topic"] = some (.text "u") ∧
      t.leaf? ["listener", "subject"] = some (.text "s") ∧
      t.leaf? ["listener", "fail_topic"] = some (.text "f") ∧
      t.leaf? ["listener", "start_topic"] = none) ∧
    (∃ t u, (sample "").tree [] .dev = .ok t ∧
      { sample "" with vars := [] }.tree [] .dev = .ok u ∧
      t.leaf? ["listener", "fail_topic"] = some (.text "f") ∧
      ∀ path, path ≠ ["listener", "fail_topic"] → t.leaf? path = u.leaf? path) ∧
    (∃ t u, (sample "").tree [] .dev = .ok t ∧
      (sample "listener:\n  topic: u\n").tree [] .dev = .ok u ∧
      u.leaf? ["listener", "topic"] = some (.text "u") ∧
      ∀ path, path ≠ ["listener", "topic"] → u.leaf? path = t.leaf? path) ∧
    ∃ fault, ∀ vars, Sources.settings ⟨[], vars⟩ .dev = .error fault := by
  obtain ⟨horderly, hunreadable⟩ := layers_override_leaf_by_leaf
  have hplace : Variable.place? "APP_LISTENER__FAIL_TOPIC" = some ["listener", "fail_topic"] := by
    decide +kernel
  have hnew : ∀ own, ∀ path ≠ ["listener", "fail_topic"],
      Variable.leaf? [] (sample own).vars path = none := by
    intro own path hpath
    refine Variable.leaf?_of_notMem fun hmem => hpath ?_
    rw [sample, Variable.places, List.filterMap_cons, hplace] at hmem
    exact List.mem_singleton.1 hmem
  have hown : ∀ path, path ≠ ["listener", "topic"] →
      (table sampleOwn).leaf? path = (table []).leaf? path := by
    intro path hpath
    rw [sampleOwn, Value.leaf?_nest rfl (List.cons_ne_nil _ _), if_neg hpath]
    cases path <;> rfl
  refine ⟨?_, ?_, ?_, ?_⟩
  · obtain ⟨⟨t, ht, -, hleaf⟩, hvariable, -⟩ := horderly _ .dev _ _ [] orderly_sample_topic
    obtain ⟨t', -, ht', -, hf, -⟩ := hvariable [] [] _ _ rfl hplace
    obtain rfl := Except.ok.inj (ht.symm.trans ht')
    refine ⟨t, ht, ?_, ?_, hf, ?_⟩
    all_goals
      rw [hleaf, latest?, hnew _ _ (by decide)]
      rfl
  · exact (horderly _ .dev _ _ [] orderly_sample_empty).2.1 [] [] _ _ rfl hplace
  · obtain ⟨t, u, ht, hu, htopic, hothers⟩ :=
      (horderly _ .dev _ _ [] orderly_sample_empty).2.2 _ sampleOwn _ (.text "u")
        orderly_sample_topic rfl rfl hown
    rw [hnew _ _ (by decide), Option.none_or] at htopic
    exact ⟨t, u, ht, hu, htopic, hothers⟩
  · obtain ⟨fault, hfault⟩ := hunreadable ⟨[], []⟩ .dev baseFile List.mem_cons_self
      fun text htext => by cases htext
    exact ⟨fault, fun vars => hfault vars Settings Settings.shape Settings.ofJson? []⟩

/-- Sources with a variable in whose name a key has an accent. -/
def accented : Sources where
  files :=
    [("base.yaml",
        "source_catalog:\n  name: source\nreplica_catalog:\n  name: replica\n"
          ++ "copier:\n  listing_path: /l\nlistener:\n  topic: t\n"),
      ("dev.yaml", "")]
  vars := [("APP_LISTENER__HEADERS__É", "v")]

/-- What the base file says beside it. -/
def accentedBase : List (String × Value) :=
  [("source_catalog", table [("name", .text "source")]),
    ("replica_catalog", table [("name", .text "replica")]),
    ("copier", table [("listing_path", .text "/l")]),
    ("listener", table [("topic", .text "t")])]

/-- **An accented key is no step of a path.**  The sources are orderly, and the name of the variable
is cut into plain keys, but the variable does not set the leaf where these keys lead. -/
theorem accented_key_is_no_step :
    accented.Orderly .dev accentedBase [] ∧
    Variable.path? "APP_LISTENER__HEADERS__É" = some ["listener", "headers", "é"] ∧
    ∃ t, accented.tree [] .dev = .ok t ∧ t.leaf? ["listener", "headers", "é"] = none := by
  have hbase : accented.fileLayer baseFile = .ok accentedBase :=
    fileLayer_of_table
      (.mapping
        [(.text "source_catalog", .mapping [(.text "name", .text "source")]),
          (.text "replica_catalog", .mapping [(.text "name", .text "replica")]),
          (.text "copier", .mapping [(.text "listing_path", .text "/l")]),
          (.text "listener", .mapping [(.text "topic", .text "t")])])
      rfl (by decide +kernel) rfl
  have hown : accented.fileLayer (fileOf .dev) = .ok [] :=
    fileLayer_of_nothing rfl (by decide +kernel)
  have hsection : ∀ key x, PlainKey key → (table [(key, .text x)]).HasPlainKeys := fun key x h =>
    .table (List.forall_mem_singleton.2 h) (List.forall_mem_singleton.2 (.leaf rfl))
  have hkeys : (table accentedBase).HasPlainKeys := by
    refine .table (by decide +kernel) fun e he => ?_
    simp only [accentedBase, List.mem_cons, List.not_mem_nil, or_false] at he
    rcases he with rfl | rfl | rfl | rfl <;> exact hsection _ _ (by decide +kernel)
  have hvars : Variable.HavePlainKeys accented.vars := by
    unfold Variable.HavePlainKeys
    decide +kernel
  have hpaths : Variable.paths accented.vars = [["listener", "headers", "é"]] := by
    decide +kernel
  have horderly : accented.Orderly .dev accentedBase [] :=
    orderly_of_path hbase hown hkeys (.table (fun e he => by cases he) fun e he => by cases he)
      hvars hpaths (Value.agree_empty accentedBase).symm (by decide +kernel) (by decide +kernel)
  have hplaces : Variable.places accented.vars = [["listener.headers.é"]] := by decide +kernel
  obtain ⟨t, ht, hleaf⟩ := horderly.leaf?_tree []
  refine ⟨horderly, by decide +kernel, t, ht, ?_⟩
  rw [hleaf, latest?, Variable.leaf?_of_notMem (hplaces ▸ by decide)]
  rfl

end Sources
end Settings
end Replication

import Mathlib.Logic.Function.Defs
import Replication.Notification.Message
import Replication.Proofs.Json.Shape

/-!
# The wire form loses nothing

A message is written as an object of up to seventeen members, and its reader puts the
members back into a message.  That nothing is lost has two parts.

The text gives back the value that was written.  This holds of every value that fits the
shape of messages, and `Message.fits` says that the value of a message does, whatever
members are left out.

The value gives back the message.  Here each member is looked up by its name, behind a
number of members that may be there or not, and what it holds is taken apart.  The headers
have to come out sorted and the partition keys in their order, which is how they went in.

* `Message.wire_form_loses_nothing`: the statement, for every message.
-/

namespace Replication
namespace Message

open Json (optionalMember lookup_optionalMember ne_null_of_mem_optionalMember)
open Json.Shape (Fits FitsMembers)

/-! ## The value of a message fits its shape -/

theorem fits (m : Message) : shape.Fits m.toJson := by
  have hparts : ∀ ps : List (List String),
      Fits (.listOf (.listOf .text)) (.array (ps.map .texts)) := by
    intro ps
    refine Fits.listOf ?_
    intro v hv
    obtain ⟨ss, -, rfl⟩ := List.mem_map.1 hv
    refine Fits.listOf ?_
    intro w hw
    obtain ⟨s, -, rfl⟩ := List.mem_map.1 hw
    exact Fits.text s
  have hbytes : ∀ n : UInt64, Fits (.number Word.max64) (.number n.toNat) := by
    intro n
    have hn : n.toNat ≤ Word.max64 := Nat.le_of_lt_succ n.toNat_lt
    exact Fits.number hn hn
  have hphase : m.phase.name ∈ Phase.all.map Phase.name := by
    cases m.phase <;> decide
  rw [toJson, members, shape]
  refine Fits.record ?_ (by decide)
  simp only [List.append_assoc, List.cons_append, List.nil_append]
  refine .given (.text _) ?_
  refine .given (.oneOf hphase) ?_
  refine .given (.dictionary _) ?_
  refine .given (.text _) ?_
  refine .optionalMember Fits.text m.endTime ?_
  iterate 7 refine .given (.text _) ?_
  refine .optionalMember (fun ks => .dictionary ks.pairs) m.partitionKeys ?_
  refine .optionalMember hparts m.modifiedPartitions ?_
  refine .optionalMember hbytes m.bytesReplicated ?_
  refine .optionalMember Fits.text m.errorMessage ?_
  have hlast : FitsMembers [Json.Shape.optional "messageTruncated" .flag]
      (optionalMember "messageTruncated" (m.messageTruncated.map .flag) ++ []) :=
    .optionalMember Fits.flag m.messageTruncated .nil
  rwa [List.append_nil] at hlast

/-! ## The message comes out of its value -/

theorem ne_null_of_mem_members (m : Message) : ∀ p ∈ m.members, p.2 ≠ .null := by
  simp only [members, List.forall_mem_append]
  refine ⟨⟨⟨⟨⟨⟨⟨?_, ?_⟩, ?_⟩, ?_⟩, ?_⟩, ?_⟩, ?_⟩, ?_⟩
  case refine_1 => simp [Json.dictionary]
  case refine_3 => simp
  all_goals
    refine ne_null_of_mem_optionalMember ?_ _
    intro a h
    cases h

theorem member?_toJson (m : Message) (name : String) :
    m.toJson.member? name = m.members.lookup name := by
  rw [toJson]
  exact Json.member?_object (ne_null_of_mem_members m) name

/-- **The message comes out of its value.** -/
theorem ofJson?_toJson (m : Message) : ofJson? m.toJson = some m := by
  have hneeded : ∀ s : String, (Json.text s).asText? = some s := fun _ => rfl
  have htext : ∀ o : Option String, (o.map Json.text).bind Json.asText? = o :=
    Json.bind_map fun _ => rfl
  have hflag : ∀ o : Option Bool, (o.map Json.flag).bind Json.asFlag? = o :=
    Json.bind_map fun _ => rfl
  have hkeys : (m.partitionKeys.map fun ks => Json.dictionary ks.pairs).bind
      (Option.map Keyed.ofList ∘ Json.asDictionary?) = m.partitionKeys := by
    refine Json.bind_map (fun ks => ?_) m.partitionKeys
    rw [Function.comp_apply, Json.asDictionary?_dictionary, Option.map_some,
      Keyed.ofList_pairs]
  have hparts : ((m.modifiedPartitions.map fun ps => Json.array (ps.map Json.texts)).bind
      Json.asArray?).bind (fun ps => ps.mapM Json.asTexts?) = m.modifiedPartitions := by
    rw [Option.bind_assoc]
    refine Json.bind_map (fun ps => ?_) m.modifiedPartitions
    exact Json.mapM_map Json.asTexts?_texts ps
  have hbytes : (m.bytesReplicated.map fun n => Json.number n.toNat).bind
      (Option.map UInt64.ofNat ∘ Json.asNumber?) = m.bytesReplicated := by
    refine Json.bind_map (fun n => ?_) m.bytesReplicated
    rw [Function.comp_apply, Json.asNumber?, Option.map_some, UInt64.ofNat_toNat]
  -- every member is found under its name, whatever stands before it
  simp only [ofJson?, member?_toJson, members, List.cons_append, List.nil_append,
    List.append_assoc, List.lookup_cons, List.lookup_append, lookup_optionalMember,
    String.reduceBEq, BEq.rfl, Bool.false_eq_true, ↓reduceIte, Option.or_some, Option.or_self,
    Option.or_none, Option.none_or, Option.getD_none, Option.bind_some]
  -- and what it holds is taken apart
  simp only [hneeded, Json.asDictionary?_dictionary, Phase.ofName?_name,
    Headers.ofList_pairs, Option.map_bind, htext, hkeys, hparts, hbytes, hflag,
    Option.pure_def, Option.bind_eq_bind, Option.bind_some]

theorem decode_body (m : Message) : decode m.body = .ok m :=
  Json.decode_toText m.fits m.ofJson?_toJson

/-- **The wire form of a message loses nothing.**  What is decoded from the body of a message
is the message itself, with the partition keys in their order and with whatever was left
out; and so no other message has the same body.  Messages are the same when their headers
hold the same texts under the same names. -/
theorem wire_form_loses_nothing (m : Message) :
    decode m.body = .ok m ∧ ∀ n : Message, n.body = m.body → n = m := by
  have hdecode : ∀ n : Message, decode n.body = .ok n := by
    intro n
    exact Json.decode_toText n.fits n.ofJson?_toJson
  refine ⟨hdecode m, ?_⟩
  intro n hbody
  have hn := hdecode n
  rw [hbody, hdecode m] at hn
  exact (Except.ok.inj hn).symm

/-- Two messages that differ in the order of their partition keys alone have different
bodies.  Their texts hold a quote, a backslash, a control character and one beyond the
first plane. -/
theorem order_of_keys_is_in_the_wire_form :
    ∃ m n : Message, m.partitionKeys.map Keyed.keys = some ["b\\", "\x01"] ∧
      n.partitionKeys.map Keyed.keys = some ["\x01", "b\\"] ∧
      m.modifiedPartitions = some [[], ["\"😀"]] ∧ m.messageTruncated = some false ∧
      decode m.body = .ok m ∧ n.body ≠ m.body := by
  have h := wire_form_loses_nothing
    ⟨"1.2", .failure, ⟨[("", "\n")], by decide⟩, "0", some "1", "e", "s", "r", "db.t", "db.t",
      "/w/t", "u", some ⟨[("b\\", "int"), ("\x01", "int")], by decide⟩, some [[], ["\"😀"]],
      some 18446744073709551615, some "", some false⟩
  refine ⟨_, ⟨"1.2", .failure, ⟨[("", "\n")], by decide⟩, "0", some "1", "e", "s", "r", "db.t",
    "db.t", "/w/t", "u", some ⟨[("\x01", "int"), ("b\\", "int")], by decide⟩,
    some [[], ["\"😀"]], some 18446744073709551615, some "", some false⟩,
    rfl, rfl, rfl, rfl, h.1, ?_⟩
  intro hbody
  have hkeys := congrArg (fun m : Message => m.partitionKeys.map Keyed.keys) (h.2 _ hbody)
  exact absurd hkeys (by decide)

end Message
end Replication

import PacingFabric.Model.Rendering
import PacingFabric.Text.Json
import PacingFabric.Text.Utf8

/-!
# An explanation as JSON

What a reader of `to_json` gets back. The writers keep an object that is still to be closed;
each call adds the member it was given, with a long text cut after 256 bytes.

## Main results

* `unescape_jsonEscape`: an escaped text denotes the text, or its beginning and an ellipsis.
* `Explanation.toJson_readable_iff`: the rendering is one object with the members of the
  calls, and it keeps to UTF-8 exactly when no text has a character across the cut.
-/

namespace Pacing

/-- A text as a member shows it: itself, or its first 256 bytes and an ellipsis. -/
def shown (text : Bytes) : Bytes :=
  if text.length ≤ 256 then text else text.take 256 ++ Bytes.ofString "..."

namespace JsonCall

/-- The member that a reader finds where a call wrote. -/
def read : JsonCall → Bytes × Json.Value
  | number key value => (key, .number value.toNat)
  | flag key value => (key, .flag value)
  | member key value => (key, .text (shown value))

def key : JsonCall → Bytes
  | number key _ | flag key _ | member key _ => key

/-- The text of the call, if it has one, is cut between two characters. -/
def Whole : JsonCall → Prop
  | member _ value => Utf8.Valid (value.take 256)
  | _ => True

end JsonCall

/-- The texts an explanation carries from operators and backends. -/
def Explanation.texts (e : Explanation) : List Bytes :=
  [e.refusalDetail, e.staleOrRevokeReason] ++ (e.attempt.map ([·.detail])).getD []

/-! ## Escaping -/

theorem escapeByte_writes (b : UInt8) : Json.Writes b (escapeByte b) := by
  have hall : ∀ n : Fin 256, Json.Writes (UInt8.ofNat n) (escapeByte (UInt8.ofNat n)) := by
    decide +kernel
  simpa using hall ⟨b.toNat, b.toNat_lt⟩

theorem escapeByte_ascii (b : UInt8) (h : b < 0x80) :
    Utf8.Ascii (escapeByte b) ∧ escapeByte b ≠ [] := by
  have hall : ∀ n : Fin 0x80, (escapeByte (UInt8.ofNat n)).all (fun b => decide (b < 0x80)) = true ∧
      escapeByte (UInt8.ofNat n) ≠ [] := by decide +kernel
  have hb := hall ⟨b.toNat, UInt8.lt_iff_toNat_lt.1 h⟩
  rw [UInt8.ofNat_toNat] at hb
  exact ⟨Utf8.ascii_of_all hb.1, hb.2⟩

theorem escapeByte_wide (b : UInt8) (h : ¬ b < 0x80) : escapeByte b = [b] := by
  unfold escapeByte
  -- the bytes with an escape of their own are all ASCII
  split
  case h_6 =>
    have hcontrol : ¬ b < 0x20 := by
      rw [UInt8.lt_iff_toNat_lt] at h ⊢
      exact fun hlt => h (Nat.lt_trans hlt (by decide))
    rw [if_neg hcontrol]
  all_goals exact absurd (by decide) h

theorem jsonEscapeFrom_eq (limit emitted : Nat) (input : Bytes) :
    jsonEscapeFrom limit emitted input =
      (input.take (limit - emitted)).flatMap escapeByte ++
        (if input.length ≤ limit - emitted then [] else Bytes.ofString "...") := by
  induction input generalizing emitted with
  | nil => simp [jsonEscapeFrom]
  | cons ch rest ih =>
    by_cases h : emitted ≥ limit
    · simp [jsonEscapeFrom, h, Nat.sub_eq_zero_of_le h]
    · obtain ⟨left, hleft⟩ := @Nat.exists_eq_succ_of_ne_zero (limit - emitted) (by omega)
      have hnext : limit - (emitted + 1) = left := by omega
      rw [jsonEscapeFrom, if_neg h, ih, hleft, hnext]
      simp [List.append_assoc]

/-- An escaped text denotes the text, or its beginning and an ellipsis. -/
theorem unescape_jsonEscape (text : Bytes) :
    Json.unescape (jsonEscape text 256) = some (shown text) := by
  have hplain : ∀ b ∈ Bytes.ofString "...", Json.Plain b := by decide +kernel
  simp only [jsonEscape, jsonEscapeFrom_eq, Json.unescape_flatMap escapeByte_writes, shown]
  by_cases hshort : text.length ≤ 256
  · simp [hshort, List.take_of_length_le hshort, Json.unescape]
  · simp [hshort, Json.unescape_of_plain hplain]

theorem valid_jsonEscape_iff (text : Bytes) :
    Utf8.Valid (jsonEscape text 256) ↔ Utf8.Valid (text.take 256) := by
  have hdots : Utf8.Ascii (if text.length ≤ 256 - 0 then [] else Bytes.ofString "...") := by
    split
    · exact List.forall_mem_nil _
    · exact Utf8.ascii_of_all rfl
  rw [jsonEscape, jsonEscapeFrom_eq, Utf8.valid_append_ascii_iff hdots]
  exact Utf8.valid_flatMap_iff escapeByte_ascii escapeByte_wide _

theorem decimal_ascii (n : UInt64) : Utf8.Ascii (decimal n) := by
  intro b hb
  obtain ⟨d, hd, hbd⟩ := List.mem_flatMap.1 hb
  have hdigit := Nat.isDigit_of_mem_toDigits (by decide) (by decide) hd
  refine Utf8.ascii_encode ?_ b hbd
  have hle : d.val ≤ 57 := by
    rw [Char.isDigit, Bool.and_eq_true, decide_eq_true_iff, decide_eq_true_iff] at hdigit
    exact hdigit.2
  exact Nat.lt_of_le_of_lt (UInt32.le_iff_toNat_le.1 hle) (by decide)

theorem ErrorCode.text_ascii (code : ErrorCode) : Utf8.Ascii code.text := by
  cases code <;> exact Utf8.ascii_of_all rfl

theorem AuthorityDrift.text_ascii (drift : AuthorityDrift) : Utf8.Ascii drift.text := by
  cases drift <;> exact Utf8.ascii_of_all rfl

theorem CadenceShape.text_ascii (shape : CadenceShape) : Utf8.Ascii shape.text := by
  cases shape <;> exact Utf8.ascii_of_all rfl

theorem ApplicationState.text_ascii (state : ApplicationState) : Utf8.Ascii state.text := by
  cases state <;> exact Utf8.ascii_of_all rfl

theorem EffectLabel.text_ascii (label : EffectLabel) : Utf8.Ascii label.text := by
  cases label <;> exact Utf8.ascii_of_all rfl

theorem EvidenceKind.text_ascii (kind : EvidenceKind) : Utf8.Ascii kind.text := by
  cases kind <;> exact Utf8.ascii_of_all rfl

theorem GenRef.text_ascii {tag : Tag} (ref : GenRef tag) : Utf8.Ascii ref.text :=
  ((decimal_ascii _).append (Utf8.ascii_of_all rfl)).append (decimal_ascii _)

/-! ## The writers -/

/-- The text is an object still to be closed, with what the calls wrote for members. -/
def JsonText.Holds (text : JsonText) (calls : List JsonCall) : Prop :=
  text.first = calls.isEmpty ∧
    ∃ body, text.out = 0x7B :: body ∧ Json.Members body (calls.map JsonCall.read)

namespace JsonText.Holds

theorem start : JsonText.Holds { out := "\x7b" } [] := ⟨rfl, [], rfl, .nil⟩

theorem put {text : JsonText} {calls : List JsonCall} {call : JsonCall} {value : Bytes}
    (h : text.Holds calls) (hkey : ∀ b ∈ call.key, Json.Plain b)
    (hread : call.read.1 = call.key) (hvalue : call.read.2.Written value) :
    (text.put call.key value).Holds (calls ++ [call]) := by
  obtain ⟨hfirst, body, hout, hbody⟩ := h
  have hmember : Json.Member (0x22 :: (call.key ++ [0x22]) ++ 0x3A :: value) call.read :=
    ⟨_, value, rfl, ⟨_, rfl, by rw [hread, Json.unescape_of_plain hkey]⟩, hvalue⟩
  refine ⟨by simp [JsonText.put], _, ?_, by simpa using hbody.concat hmember⟩
  -- the comma is written for every member but the first, as the grammar has it
  have hquote : Bytes.ofString "\"" = [0x22] := rfl
  have hcolon : Bytes.ofString "\":" = [0x22, 0x3A] := rfl
  have hcomma : Bytes.ofString "," = [0x2C] := rfl
  simp only [JsonText.put, hfirst, hout, hquote, hcolon, hcomma]
  cases calls with
  | nil => simp [hbody.eq_nil rfl]
  | cons first calls => simp

theorem write {text : JsonText} {calls : List JsonCall} {call : JsonCall}
    (h : text.Holds calls) (hkey : ∀ b ∈ call.key, Json.Plain b) :
    (call.write text).Holds (calls ++ [call]) := by
  cases call with
  | number key value => exact h.put hkey rfl (Json.numeral_toDigits _)
  | flag key value => exact h.put hkey rfl (by cases value <;> rfl)
  | member key value =>
    refine h.put hkey rfl ⟨jsonEscape value 256, ?_, unescape_jsonEscape value⟩
    have hquote : Bytes.ofString "\"" = [0x22] := rfl
    simp [hquote]

theorem run {text : JsonText} {before : List JsonCall} (h : text.Holds before) :
    ∀ calls : List JsonCall, (∀ call ∈ calls, ∀ b ∈ call.key, Json.Plain b) →
      (calls.foldl JsonCall.write text).Holds (before ++ calls) := by
  intro calls
  induction calls generalizing text before with
  | nil => simpa using h
  | cons call calls ih =>
    intro hkeys
    have hnext := ih (h.write (hkeys call (by simp))) fun c hc => hkeys c (by simp [hc])
    simpa using hnext

end JsonText.Holds

/-! ## Characters -/

theorem valid_put_iff {text : JsonText} {key value : Bytes} (hkey : Utf8.Ascii key) :
    Utf8.Valid (text.put key value).out ↔ Utf8.Valid text.out ∧ Utf8.Valid value := by
  have hcomma : Utf8.Ascii (Bytes.ofString ",") := Utf8.ascii_of_all rfl
  have hquote : Utf8.Ascii (Bytes.ofString "\"") := Utf8.ascii_of_all rfl
  have hcolon : Utf8.Ascii (Bytes.ofString "\":") := Utf8.ascii_of_all rfl
  have hhead := (hquote.append hkey).append hcolon
  have hne : Bytes.ofString "\"" ++ key ++ Bytes.ofString "\":" ≠ [] := by
    simp [show Bytes.ofString "\"" = [0x22] from rfl]
  by_cases hfirst : text.first = true
  · have hiff := @Utf8.valid_ascii_iff text.out _ value hhead hne
    simpa [JsonText.put, hfirst] using hiff
  · have hiff := @Utf8.valid_ascii_iff (text.out ++ Bytes.ofString ",") _ value hhead hne
    rw [Utf8.valid_append_ascii_iff hcomma] at hiff
    simpa [JsonText.put, hfirst] using hiff

theorem valid_write_iff {text : JsonText} {call : JsonCall} (hkey : Utf8.Ascii call.key) :
    Utf8.Valid (call.write text).out ↔ Utf8.Valid text.out ∧ call.Whole := by
  cases call with
  | number key value =>
    exact (valid_put_iff hkey).trans (and_congr_right' (iff_true_intro (decimal_ascii value).valid))
  | flag key value =>
    have hvalue : Utf8.Ascii (if value then "true" else "false" : Bytes) := by
      cases value <;> exact Utf8.ascii_of_all rfl
    exact (valid_put_iff hkey).trans (and_congr_right' (iff_true_intro hvalue.valid))
  | member key value =>
    have hquote : Utf8.Ascii (Bytes.ofString "\"") := Utf8.ascii_of_all rfl
    refine (valid_put_iff hkey).trans (and_congr_right' ?_)
    rw [Utf8.valid_append_ascii_iff hquote, hquote.valid.append_iff, valid_jsonEscape_iff]
    rfl

theorem valid_run_iff {text : JsonText} (calls : List JsonCall)
    (hkeys : ∀ call ∈ calls, Utf8.Ascii call.key) :
    Utf8.Valid (calls.foldl JsonCall.write text).out ↔
      Utf8.Valid text.out ∧ ∀ call ∈ calls, call.Whole := by
  induction calls generalizing text with
  | nil => simp
  | cons call calls ih =>
    have hcall := @valid_write_iff text call (hkeys call (by simp))
    rw [List.foldl_cons, ih fun c hc => hkeys c (by simp [hc]), hcall, and_assoc]
    simp

namespace Explanation

/-- Keys are literals that need no escape. -/
theorem key_plain {e : Explanation} {call : JsonCall} (h : call ∈ e.jsonCalls) :
    (∀ b ∈ call.key, Json.Plain b) ∧ Utf8.Ascii call.key := by
  -- the keys do not depend on what the sections hold
  let full : Explanation := { grant := some {}, envelope := some {}, attempt := some {} }
  have hall : (full.jsonCalls.map JsonCall.key).all (fun key =>
      key.all fun b => decide (Json.Plain b ∧ b < 0x80)) = true := by decide +kernel
  have hgrant : (((e.grant.map RateGrant.jsonCalls).getD []).map JsonCall.key).Sublist
      ((RateGrant.jsonCalls {}).map JsonCall.key) := by
    cases e.grant with
    | none => exact List.nil_sublist _
    | some grant =>
      simp only [RateGrant.jsonCalls, List.map, JsonCall.key, Option.map_some, Option.getD_some]
      exact .refl _
  have henvelope : (((e.envelope.map e.envelopeCalls).getD []).map JsonCall.key).Sublist
      ((full.envelopeCalls {}).map JsonCall.key) := by
    cases e.envelope with
    | none => exact List.nil_sublist _
    | some envelope =>
      simp only [envelopeCalls, List.map, JsonCall.key, Option.map_some, Option.getD_some]
      exact .refl _
  have hattempt : (((e.attempt.map attemptCalls).getD []).map JsonCall.key).Sublist
      ((attemptCalls {}).map JsonCall.key) := by
    cases e.attempt with
    | none => exact List.nil_sublist _
    | some attempt =>
      simp only [attemptCalls, List.map, JsonCall.key, Option.map_some, Option.getD_some]
      exact .refl _
  have hkeys : (e.jsonCalls.map JsonCall.key).Sublist (full.jsonCalls.map JsonCall.key) := by
    simp only [jsonCalls, List.map_append]
    exact (((List.Sublist.refl _).append hgrant).append henvelope).append hattempt
  have hkey := List.all_eq_true.1 hall _ (hkeys.subset (List.mem_map_of_mem h))
  have hbytes : ∀ b ∈ call.key, Json.Plain b ∧ b < 0x80 :=
    fun b hb => of_decide_eq_true (List.all_eq_true.1 hkey b hb)
  exact ⟨fun b hb => (hbytes b hb).1, fun b hb => (hbytes b hb).2⟩

/-- A text of a call is one the explanation carries, or a name of the coordinator's own. -/
theorem text_cases {e : Explanation} {key text : Bytes} (h : .member key text ∈ e.jsonCalls) :
    text ∈ e.texts ∨ Utf8.Ascii text := by
  simp only [jsonCalls, List.mem_append, or_assoc] at h
  rcases h with hhead | hgrant | henvelope | hattempt
  · simp only [List.mem_cons, List.not_mem_nil, JsonCall.member.injEq, reduceCtorEq, false_or,
      or_false] at hhead
    rcases hhead with ⟨-, rfl⟩ | ⟨-, rfl⟩ | ⟨-, rfl⟩ | ⟨-, rfl⟩ | ⟨-, rfl⟩
    · exact .inr e.refusal.text_ascii
    · exact .inl (by simp [texts])
    · exact .inr e.drift.text_ascii
    · exact .inl (by simp [texts])
    · exact .inr e.effect.text_ascii
  · cases hg : e.grant with
    | none => simp [hg] at hgrant
    | some grant => simp [hg, RateGrant.jsonCalls] at hgrant
  · cases henv : e.envelope with
    | none => simp [henv] at henvelope
    | some envelope =>
      have hshape : text = envelope.cadence.shape.text := by
        simp only [henv, Option.map_some, Option.getD_some, envelopeCalls, List.mem_cons,
          List.not_mem_nil, JsonCall.member.injEq, reduceCtorEq, false_or, or_false] at henvelope
        exact henvelope.2
      exact .inr (hshape ▸ envelope.cadence.shape.text_ascii)
  · cases hatt : e.attempt with
    | none => simp [hatt] at hattempt
    | some attempt =>
      simp only [hatt, Option.map_some, Option.getD_some, attemptCalls, List.mem_cons,
        List.not_mem_nil, JsonCall.member.injEq, reduceCtorEq, false_or, or_false] at hattempt
      rcases hattempt with
        ⟨-, rfl⟩ | ⟨-, rfl⟩ | ⟨-, rfl⟩ | ⟨-, rfl⟩ | ⟨-, rfl⟩ | ⟨-, rfl⟩ | ⟨-, rfl⟩
      · exact .inr attempt.state.text_ascii
      · exact .inr attempt.lastKnownState.text_ascii
      · exact .inr attempt.effect.text_ascii
      · exact .inr attempt.evidenceKind.text_ascii
      · exact .inr attempt.backend.text_ascii
      · exact .inr attempt.reason.text_ascii
      · exact .inl (by simp [texts, hatt])

theorem text_called {e : Explanation} {text : Bytes} (h : text ∈ e.texts) :
    ∃ key, .member key text ∈ e.jsonCalls := by
  simp only [texts, List.mem_append, List.mem_cons, List.not_mem_nil, or_false] at h
  rcases h with (rfl | rfl) | hdetail
  · exact ⟨"refusal_detail", by simp [jsonCalls]⟩
  · exact ⟨"stale_or_revoke_reason", by simp [jsonCalls]⟩
  · cases hatt : e.attempt with
    | none => simp [hatt] at hdetail
    | some attempt =>
      have heq : text = attempt.detail := by simpa [hatt] using hdetail
      exact ⟨"detail", by simp [jsonCalls, attemptCalls, hatt, heq]⟩

theorem jsonObject_object (e : Explanation) :
    Json.Object e.jsonObject (e.jsonCalls.map JsonCall.read) := by
  obtain ⟨-, body, hout, hbody⟩ :=
    JsonText.Holds.start.run e.jsonCalls fun call hcall => (key_plain hcall).1
  refine ⟨body, hbody, ?_⟩
  rw [jsonObject, hout]
  rfl

theorem valid_jsonObject_iff (e : Explanation) :
    Utf8.Valid e.jsonObject ↔ ∀ call ∈ e.jsonCalls, call.Whole := by
  have hbrace : Utf8.Ascii (Bytes.ofString "\x7b") := Utf8.ascii_of_all rfl
  have hclose : Utf8.Ascii (Bytes.ofString "\x7d") := Utf8.ascii_of_all rfl
  rw [jsonObject, Utf8.valid_append_ascii_iff hclose,
    valid_run_iff e.jsonCalls fun call hcall => (key_plain hcall).2]
  exact and_iff_right hbrace.valid

theorem toJson_of_fits {e : Explanation} {maxBytes : Nat}
    (fits : e.jsonObject.length ≤ maxBytes) : e.toJson maxBytes = e.jsonObject := by
  have hpos : maxBytes ≠ 0 := by
    rintro rfl
    obtain ⟨body, -, hbody⟩ := e.jsonObject_object
    rw [hbody] at fits
    cases fits
  simp [toJson, boundExplanation, hpos, fits]

/-- A rendering within its bound is one object in which every text is shown; it is UTF-8 for
UTF-8 texts exactly when none of them has a character across its 256th byte. -/
theorem toJson_readable_iff (e : Explanation) (maxBytes : Nat)
    (fits : e.jsonObject.length ≤ maxBytes) :
    (Json.Object (e.toJson maxBytes) (e.jsonCalls.map JsonCall.read) ∧
      ((∀ text ∈ e.texts, Utf8.Valid text) → Utf8.Valid (e.toJson maxBytes))) ↔
    ((∀ text ∈ e.texts, Utf8.Valid text) → ∀ text ∈ e.texts, Utf8.Boundary text 256) := by
  rw [toJson_of_fits fits, and_iff_right e.jsonObject_object, valid_jsonObject_iff]
  -- given valid texts, a cut is whole exactly at a boundary
  refine forall_congr' fun hvalid => ⟨fun h text htext => ?_, fun h call hcall => ?_⟩
  · obtain ⟨key, hcalled⟩ := text_called htext
    exact (Utf8.valid_take_iff (hvalid text htext) 256).1 (h _ hcalled)
  · cases call with
    | number | flag => trivial
    | member key text =>
      rcases text_cases hcall with htext | hascii
      · exact (Utf8.valid_take_iff (hvalid text htext) 256).2 (h text htext)
      · exact (hascii.take 256).valid

theorem toJson_readable_short :
    Json.Object (toJson { staleOrRevokeReason := "operator request" } 8192)
      (jsonCalls { staleOrRevokeReason := "operator request" } |>.map JsonCall.read) ∧
    ((∀ text ∈ texts { staleOrRevokeReason := "operator request" }, Utf8.Valid text) →
      Utf8.Valid (toJson { staleOrRevokeReason := "operator request" } 8192)) := by
  have hshort : ∀ text ∈ texts { staleOrRevokeReason := "operator request" },
      text[256]? = none := by decide +kernel
  refine (toJson_readable_iff _ 8192 (by decide +kernel)).2 fun _ text htext b hb => ?_
  rw [hshort text htext] at hb
  cases hb

/-- A revocation reason of 255 letters and a character of two bytes. -/
def split : Explanation :=
  { staleOrRevokeReason := List.replicate 255 0x61 ++ String.utf8EncodeChar (Char.ofNat 0xE9) }

theorem toJson_split :
    split.jsonObject.length ≤ 8192 ∧ (∀ text ∈ split.texts, Utf8.Valid text) ∧
      ¬ Utf8.Valid (split.toJson 8192) := by
  have fits : split.jsonObject.length ≤ 8192 := by decide +kernel
  have hletters : Utf8.Ascii (List.replicate 255 0x61) := by
    intro b hb
    rw [List.eq_of_mem_replicate hb]
    decide
  have hreason : Utf8.Valid split.staleOrRevokeReason :=
    hletters.valid.append (Utf8.valid_iff.2 ⟨[Char.ofNat 0xE9], by simp⟩)
  refine ⟨fits, fun text htext => ?_, fun h => ?_⟩
  · simp only [texts, split, Option.map_none, Option.getD_none, List.append_nil, List.mem_cons,
      List.not_mem_nil, or_false] at htext
    rcases htext with rfl | rfl
    · exact Utf8.valid_nil
    · exact hreason
  · rw [toJson_of_fits fits, valid_jsonObject_iff] at h
    have hcut : Utf8.Valid (split.staleOrRevokeReason.take 256) :=
      h (.member "stale_or_revoke_reason" split.staleOrRevokeReason) (by simp [jsonCalls])
    -- the cut leaves the second byte of the last character outside
    have hstarts := (Utf8.valid_take_iff hreason 256).1 hcut 0xA9 (by decide +kernel)
    exact absurd hstarts (by decide)

end Explanation

end Pacing

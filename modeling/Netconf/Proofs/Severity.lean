import Netconf.Proofs.ErrorInfo
import Netconf.Proofs.StrictFraming

/-!
# Which error the caller has to deal with

A reply keeps all errors that are reported in it. Decoding points out the first of them that
concerns the caller: the first whose severity is that of an error, or the first of all if warnings
count. Whether warnings count changes nothing else, and the one warning that is logged is about that
error (`entries_decode`). Everything follows from what a decoded message was read as
(`exists_of_decode`).
-/

namespace Netconf

open Netconf.Framing Netconf.Outcome Netconf.Text Netconf.Xml

/-! ## The first error that concerns the caller -/

namespace RpcError

/-- Whether an error concerns a caller who counts warnings or does not. -/
def Concerns (e : RpcError) (warningsCount : Bool) : Prop :=
  e.severity = "error".toList ∨ warningsCount = true

/-- Whether the first error that concerns the caller stands at an index. -/
structure IsFirst (errors : List RpcError) (warningsCount : Bool) (i : ℕ) : Prop where
  concerns : ∃ e, errors[i]? = some e ∧ e.Concerns warningsCount
  /-- No error in front of it does. -/
  before : ∀ j < i, ∀ e, errors[j]? = some e → ¬ e.Concerns warningsCount

lemma isFatalTo_iff {e : RpcError} {warningsCount : Bool} :
    e.isFatalTo warningsCount = true ↔ e.Concerns warningsCount := by
  rw [isFatalTo, Bool.or_eq_true, isFatal, beq_iff_eq]
  rfl

lemma firstFatalIndex?_eq_some_iff {errors : List RpcError} {warningsCount : Bool} {i : ℕ} :
    firstFatalIndex? errors warningsCount = some i ↔ IsFirst errors warningsCount i := by
  rw [firstFatalIndex?, List.findIdx?_eq_some_iff_getElem]
  constructor
  · rintro ⟨hi, hfatal, hbefore⟩
    refine ⟨⟨errors[i], List.getElem?_eq_getElem hi, isFatalTo_iff.1 hfatal⟩, ?_⟩
    intro j hj e he
    obtain ⟨hlt, rfl⟩ := List.getElem?_eq_some_iff.1 he
    exact fun hconcerns => hbefore j hj (isFatalTo_iff.2 hconcerns)
  · rintro ⟨⟨e, he, hconcerns⟩, hbefore⟩
    obtain ⟨hi, rfl⟩ := List.getElem?_eq_some_iff.1 he
    refine ⟨hi, isFatalTo_iff.2 hconcerns, ?_⟩
    intro j hj hfatal
    exact hbefore j hj _ (List.getElem?_eq_getElem (hj.trans hi)) (isFatalTo_iff.1 hfatal)

lemma firstFatalIndex?_eq_none_iff {errors : List RpcError} {warningsCount : Bool} :
    firstFatalIndex? errors warningsCount = none ↔ ∀ e ∈ errors, ¬ e.Concerns warningsCount := by
  rw [firstFatalIndex?, List.findIdx?_eq_none_iff]
  refine forall₂_congr fun e _ => ?_
  rw [← isFatalTo_iff, Bool.not_eq_true]

/-- The error itself is the one at its index. -/
lemma firstFatal?_eq (errors : List RpcError) (warningsCount : Bool) :
    firstFatal? errors warningsCount
      = (firstFatalIndex? errors warningsCount).bind fun i => errors[i]? :=
  List.find?_eq_bind_findIdx?_getElem?

/-- If warnings count, the first of all errors concerns the caller. -/
lemma firstFatalIndex?_true {errors : List RpcError} (h : errors ≠ []) :
    firstFatalIndex? errors true = some 0 := by
  obtain ⟨e, rest, rfl⟩ := List.exists_cons_of_ne_nil h
  refine firstFatalIndex?_eq_some_iff.2 ⟨⟨e, rfl, Or.inr rfl⟩, ?_⟩
  intro j hj
  cases hj

end RpcError

namespace Reply

/-! ## What a decoded message was read as -/

/-- What is decoded is the reply that the text without framing was read as, under the id of its
request. -/
lemma exists_of_decode {o : DecodeOptions} {raw : Wire} {d : Decoded}
    (h : (decode o raw).result = .ok d) :
    ∃ s r, (unframe raw o.countsChunks).result = .ok s ∧ (parse s).result = .ok r ∧
      d = ⟨{ r with messageId := o.messageId },
        RpcError.firstFatalIndex? r.errors o.warningsCount⟩ := by
  rw [decode, Logged.result_andThen] at h
  obtain ⟨s, hs, htext⟩ := bind_eq_ok_iff.1 h
  rw [result_decodeText] at htext
  cases hr : (parse s).result with
  | error e =>
    rw [hr] at htext
    cases htext
  | ok r =>
    rw [hr] at htext
    cases htext
    exact ⟨s, r, hs, hr, rfl⟩

/-- All errors that the document reports are kept. -/
lemma errors_of_decode {o : DecodeOptions} {raw : Wire} {d : Decoded}
    (h : (decode o raw).result = .ok d) :
    ∃ document, Document.ofText (.ofText (trim d.reply.rawReply)) = .ok document ∧
      d.reply.errors = (errorElements document.root).map RpcError.ofElement := by
  obtain ⟨s, r, -, hr, rfl⟩ := exists_of_decode h
  rw [result_parse, ofText_eq_ok_iff] at hr
  obtain ⟨document, hdocument, -, rfl⟩ := hr
  exact ⟨document, hdocument, errorsOf_eq document.root⟩

/-- Whether warnings count only changes which error is pointed out. -/
lemma result_decode_errorOnWarning {o : DecodeOptions} {raw : Wire} {d : Decoded}
    (h : (decode o raw).result = .ok d) (warningsCount : Bool) :
    (decode { o with errorOnWarning := some warningsCount } raw).result
      = .ok ⟨d.reply, RpcError.firstFatalIndex? d.reply.errors warningsCount⟩ := by
  obtain ⟨s, r, hs, hr, rfl⟩ := exists_of_decode h
  rw [decode, Logged.result_andThen]
  refine bind_eq_ok_iff.2 ⟨s, hs, ?_⟩
  rw [result_decodeText, hr]
  rfl

/-! ## What is logged -/

/-- Nothing but details is reported on taking the framing off. -/
lemma level_of_mem_unframe {raw : Wire} {countsChunks : Bool} {s : List Char}
    (h : (unframe raw countsChunks).result = .ok s) :
    ∀ entry ∈ (unframe raw countsChunks).entries, entry.level = .debug := by
  rw [unframe] at h ⊢
  split_ifs at h ⊢
  · -- one entry on each chunk
    intro entry hentry
    obtain ⟨chunk, -, rfl⟩ := List.mem_map.1 hentry
    rfl
  · cases htext : textOf raw with
    | error e =>
      rw [htext] at h
      cases h
    | ok t =>
      intro entry hentry
      cases hentry

/-- Besides details, a warning is logged about the error that concerns the caller. -/
lemma entries_decode {o : DecodeOptions} {raw : Wire} {d : Decoded}
    (h : (decode o raw).result = .ok d) :
    ∃ details, (∀ entry ∈ details, entry.level = .debug) ∧
      (decode o raw).entries = details ++
        ((d.reply.fatalError? o.warningsCount).map (fatalEntry o.messageId)).toList := by
  obtain ⟨s, r, hs, hr, rfl⟩ := exists_of_decode h
  have hsilent : (parse s).entries = [] := by
    have htext := hr
    rw [result_parse] at htext
    rw [parse, htext]
    rfl
  refine ⟨(unframe raw o.countsChunks).entries ++ [decodingEntry o.messageId s], ?_, ?_⟩
  · intro entry hentry
    rcases List.mem_append.1 hentry with hentry | hentry
    · exact level_of_mem_unframe hs entry hentry
    · rw [List.mem_singleton.1 hentry]
      rfl
  · rw [decode, Logged.andThen, hs]
    dsimp only
    have hparsed : ((parse s).mapError DecodeError.parse).result = .ok r :=
      congrArg (Except.mapError _) hr
    rw [Logged.entries_after, decodeText, decodeParsed, Logged.andThen, hparsed]
    dsimp only
    rw [Logged.entries_after, Logged.entries_after, Logged.mapError, hsilent, List.append_assoc]
    rfl

/-- **The severity policy.** Of every message that decodes, all errors are kept, and the one that is
pointed out is the first that concerns the caller, if there is one. Counting warnings changes the
reply in nothing, and points out the first error of all, which is never behind the one that is
pointed out otherwise. Looking for the error in the reply again finds that same error, and it is
what the only warning in the log is about; without it there is none. -/
theorem fatalIndex_of_decode {o : DecodeOptions} {raw : Wire} {d : Decoded}
    (h : (decode o raw).result = .ok d) :
    ((∀ i, d.fatalIndex = some i ↔ RpcError.IsFirst d.reply.errors o.warningsCount i) ∧
      (d.fatalIndex = none ↔ ∀ e ∈ d.reply.errors, ¬ e.Concerns o.warningsCount)) ∧
    (∃ document, Document.ofText (.ofText (trim d.reply.rawReply)) = .ok document ∧
      d.reply.errors = (errorElements document.root).map RpcError.ofElement) ∧
    (∃ counting ignoring,
      (decode { o with errorOnWarning := some true } raw).result = .ok ⟨d.reply, counting⟩ ∧
      (decode { o with errorOnWarning := some false } raw).result = .ok ⟨d.reply, ignoring⟩ ∧
      (d.reply.errors ≠ [] → counting = some 0) ∧
      ∀ j, ignoring = some j → ∃ i ≤ j, counting = some i) ∧
    (RpcError.firstFatalIndex? d.reply.errors o.warningsCount = d.fatalIndex ∧
      d.reply.fatalError? o.warningsCount = d.fatalIndex.bind fun i => d.reply.errors[i]?) ∧
    (decode o raw).entries.filter (·.level == .warning) =
      ((d.fatalIndex.bind fun i => d.reply.errors[i]?).map fun e =>
        ⟨.warning, .reply, "message-id=".toList ++ o.messageId ++ ' ' :: e.summary⟩).toList := by
  have hindex : RpcError.firstFatalIndex? d.reply.errors o.warningsCount = d.fatalIndex := by
    obtain ⟨s, r, -, -, rfl⟩ := exists_of_decode h
    rfl
  have herror : d.reply.fatalError? o.warningsCount
      = d.fatalIndex.bind fun i => d.reply.errors[i]? := by
    rw [fatalError?, RpcError.firstFatal?_eq, hindex]
  refine ⟨⟨?_, ?_⟩, errors_of_decode h, ?_, ⟨hindex, herror⟩, ?_⟩
  · intro i
    rw [← hindex]
    exact RpcError.firstFatalIndex?_eq_some_iff
  · rw [← hindex]
    exact RpcError.firstFatalIndex?_eq_none_iff
  · refine ⟨_, _, result_decode_errorOnWarning h true, result_decode_errorOnWarning h false,
      RpcError.firstFatalIndex?_true, ?_⟩
    intro j hj
    -- a reply with an error to point out has errors
    obtain ⟨⟨e, he, -⟩, -⟩ := RpcError.firstFatalIndex?_eq_some_iff.1 hj
    have hne : d.reply.errors ≠ [] := List.ne_nil_of_mem (List.mem_of_getElem? he)
    exact ⟨0, Nat.zero_le j, RpcError.firstFatalIndex?_true hne⟩
  · obtain ⟨details, hdetails, hentries⟩ := entries_decode h
    have hnone : details.filter (·.level == .warning) = [] := by
      rw [List.filter_eq_nil_iff]
      intro entry hentry
      rw [hdetails entry hentry]
      decide
    rw [hentries, List.filter_append, hnone, List.nil_append, herror]
    cases d.fatalIndex.bind fun i => d.reply.errors[i]? with
    | none => rfl
    | some e => rfl

/-- A reply with a warning, an error without a severity, and an error whose severity stands between
blanks. -/
def replyWithSeverities : List Char :=
  ("<rpc-reply><rpc-error><error-severity>warning</error-severity></rpc-error><rpc-error/>" ++
    "<rpc-error><error-severity> error\n</error-severity></rpc-error></rpc-reply>").toList

theorem fatalIndex_of_decode_replyWithSeverities :
    ∃ d, (decode ⟨none, "7".toList, some true, .ofEnvironment fun _ => none⟩
        (.text replyWithSeverities)).result = .ok d ∧
      RpcError.IsFirst d.reply.errors false 2 ∧
      (decode ⟨some true, "7".toList, some true, .ofEnvironment fun _ => none⟩
        (.text replyWithSeverities)).result = .ok ⟨d.reply, some 0⟩ ∧
      (decode ⟨none, "7".toList, some true, .ofEnvironment fun _ => none⟩
        (.text replyWithSeverities)).entries.filter (·.level == .warning)
        = [⟨.warning, .reply, "message-id=7 netconf rpc [error] ''".toList⟩] := by
  have haccepted : (decode ⟨none, "7".toList, some true, .ofEnvironment fun _ => none⟩
      (.text replyWithSeverities)).result.toOption.map
        (fun d => (d.fatalIndex, d.reply.errors.map (·.summary)))
      = some (some 2, ["netconf rpc [warning] ''".toList, "netconf rpc [] ''".toList,
          "netconf rpc [error] ''".toList]) := by decide +kernel
  cases hd : (decode ⟨none, "7".toList, some true, .ofEnvironment fun _ => none⟩
      (.text replyWithSeverities)).result with
  | error e =>
    rw [hd] at haccepted
    cases haccepted
  | ok d =>
    rw [hd] at haccepted
    obtain ⟨hindex, hsummaries⟩ := Prod.mk.inj (Option.some.inj haccepted)
    obtain ⟨⟨hfirst, -⟩, -, ⟨counting, ignoring, hcounting, -, hzero, -⟩, -, hlog⟩ :=
      fatalIndex_of_decode hd
    have hne : d.reply.errors ≠ [] := by
      intro hnil
      rw [hnil] at hsummaries
      cases hsummaries
    have hsummary : d.reply.errors[2]?.map (·.summary) = some "netconf rpc [error] ''".toList := by
      rw [← List.getElem?_map, hsummaries]
      rfl
    obtain ⟨e, he, hline⟩ := Option.map_eq_some_iff.1 hsummary
    rw [hzero hne] at hcounting
    refine ⟨d, rfl, (hfirst 2).1 hindex, hcounting, ?_⟩
    rw [hlog, hindex, Option.bind_some, he, Option.map_some, hline]
    rfl

end Reply

end Netconf

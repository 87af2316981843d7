import Netconf.Proofs.StrictFraming

/-!
# What is logged about failures

A message may fail to be a reply in three ways: its octets are no text, the text is no document, or
the root of the document has another name (`FailsToParse`). The steps of decoding log their own
failures, and nothing is logged on a failure but what its step logs, so that the record of a chain
of steps is that of the step which failed (`ReportsFailure.andThen`). The first two ways leave one
entry each. The third leaves none, although it is refused with the same kind of error.
-/

namespace Netconf

open Netconf.Framing Netconf.Outcome Netconf.Text Netconf.Xml

/-- The entries on failures among what was reported. -/
def failuresIn (entries : List LogEntry) : List LogEntry := entries.filter (·.level == .error)

lemma failuresIn_append (a b : List LogEntry) :
    failuresIn (a ++ b) = failuresIn a ++ failuresIn b := List.filter_append a b

namespace Reply

/-! ## How a message fails to be a reply -/

/-- The ways in which a message fails to be a reply, each with the error that it is refused with. -/
inductive FailsToParse (o : DecodeOptions) (raw : Wire) : ParseError → Prop where
  /-- The octets are no text, and they are not taken for chunks. -/
  | notText {flaw : Utf8.Malformed} (hlines : (o.countsChunks && looksChunked raw.toOctets) = false)
      (hflaw : raw.toText = .error flaw) :
      FailsToParse o raw ⟨.notText flaw, Utf8.decodeLossy raw.toOctets⟩
  /-- The text without framing is no document. -/
  | malformed {s : List Char} {fault : Fault} (hs : (unframe raw o.countsChunks).result = .ok s)
      (hfault : Document.ofText (.ofText (trim s)) = .error fault) :
      FailsToParse o raw ⟨.malformed fault, s⟩
  /-- The root of the document is not that of a reply. -/
  | otherRoot {s : List Char} {document : Document}
      (hs : (unframe raw o.countsChunks).result = .ok s)
      (hdocument : Document.ofText (.ofText (trim s)) = .ok document)
      (hname : document.root.name.base ≠ rootName) :
      FailsToParse o raw ⟨.otherRoot document.root.name.base, s⟩

lemma textOf_eq_error_iff {raw : Wire} {e : ParseError} :
    textOf raw = .error e ↔ ∃ flaw, raw.toText = .error flaw ∧
      e = ⟨.notText flaw, Utf8.decodeLossy raw.toOctets⟩ := by
  rw [textOf]
  cases raw.toText with
  | error flaw =>
    show Except.error (⟨.notText flaw, Utf8.decodeLossy raw.toOctets⟩ : ParseError) = .error e ↔ _
    simp [eq_comm]
  | ok s =>
    show Except.ok s = .error e ↔ _
    simp

/-- Taking the framing off fails to parse only for octets that are no text. -/
lemma result_unframe_eq_parse_iff {raw : Wire} {countsChunks : Bool} {e : ParseError} :
    (unframe raw countsChunks).result = .error (.parse e) ↔
      (countsChunks && looksChunked raw.toOctets) = false ∧ textOf raw = .error e := by
  rw [unframe]
  by_cases hchunks : (countsChunks && looksChunked raw.toOctets) = true
  · rw [if_pos hchunks, hchunks]
    dsimp only
    refine iff_of_false ?_ fun h => by cases h.1
    cases (decodeChunks raw.toOctets).result with
    | error e' => exact fun h => by cases h
    | ok s => exact fun h => by cases h
  · rw [if_neg hchunks, Bool.eq_false_iff.2 hchunks]
    cases textOf raw with
    | error e' =>
      show Except.error (DecodeError.parse e') = .error (.parse e) ↔ _
      simp
    | ok s =>
      show Except.ok (dropEndMarker (dropMarkerLines s)) = Except.error (DecodeError.parse e) ↔ _
      simp

/-- Reading a text that has no framing fails exactly as the text does. -/
lemma result_decodeText_eq_parse_iff {o : DecodeOptions} {s : List Char} {e : ParseError} :
    (decodeText o s).result = .error (.parse e) ↔ ofText s = .error e := by
  rw [result_decodeText, result_parse]
  cases ofText s with
  | error e' => simp [decoded]
  | ok r => simp [decoded]

/-- A message is refused as no reply exactly in one of the three ways. -/
lemma result_decode_eq_parse_iff {o : DecodeOptions} {raw : Wire} {e : ParseError} :
    (decode o raw).result = .error (.parse e) ↔ FailsToParse o raw e := by
  have hchain : (decode o raw).result = .error (.parse e) ↔
      (unframe raw o.countsChunks).result = .error (.parse e) ∨
        ∃ s, (unframe raw o.countsChunks).result = .ok s ∧ ofText s = .error e := by
    rw [decode, Logged.result_andThen]
    cases (unframe raw o.countsChunks).result with
    | error e' => simp [Except.bind]
    | ok s => simp [Except.bind, result_decodeText_eq_parse_iff]
  rw [hchain, result_unframe_eq_parse_iff, textOf_eq_error_iff]
  constructor
  · rintro (⟨hlines, flaw, hflaw, rfl⟩ | ⟨s, hs, herror⟩)
    · exact .notText hlines hflaw
    · rcases ofText_eq_error_iff.1 herror with ⟨fault, hfault, rfl⟩ |
        ⟨document, hdocument, hname, rfl⟩
      · exact .malformed hs hfault
      · exact .otherRoot hs hdocument hname
  · intro h
    cases h with
    | notText hlines hflaw => exact Or.inl ⟨hlines, _, hflaw, rfl⟩
    | malformed hs hfault =>
      exact Or.inr ⟨_, hs, ofText_eq_error_iff.2 (Or.inl ⟨_, hfault, rfl⟩)⟩
    | otherRoot hs hdocument hname =>
      exact Or.inr ⟨_, hs, ofText_eq_error_iff.2 (Or.inr ⟨_, hdocument, hname, rfl⟩)⟩

/-! ## Each step logs its own failures -/

/-- The entries that a result calls for: on a text that is no reply those of its error, and
otherwise none. -/
def failureEntries {α : Type} : Except DecodeError α → List LogEntry
  | .error (.parse e) => entriesOn e
  | .error (.chunk _) => []
  | .ok _ => []

/-- Whether the entries on failures are those that the result calls for. -/
def ReportsFailure {α : Type} (x : Logged (Except DecodeError α)) : Prop :=
  failuresIn x.entries = failureEntries x.result

/-- If each of two steps reports its own failures, so do both together. -/
lemma ReportsFailure.andThen {α β : Type} {x : Logged (Except DecodeError α)}
    {f : α → Logged (Except DecodeError β)} (hx : ReportsFailure x)
    (hf : ∀ a, ReportsFailure (f a)) : ReportsFailure (x.andThen f) := by
  unfold ReportsFailure at hx
  unfold ReportsFailure Logged.andThen
  cases hresult : x.result with
  | error e =>
    rw [hresult] at hx
    -- the second step is not taken
    show failuresIn x.entries = failureEntries (.error e)
    cases e <;> exact hx
  | ok a =>
    rw [hresult] at hx
    show failuresIn ((f a).after x.entries).entries = failureEntries (f a).result
    rw [Logged.entries_after, failuresIn_append, hx]
    exact hf a

lemma failuresIn_entriesOn (e : ParseError) : failuresIn (entriesOn e) = entriesOn e := by
  rw [entriesOn]
  cases e.problem <;> rfl

/-- No chunk is a failure. -/
lemma failuresIn_decodeChunks (bs : List UInt8) : failuresIn (decodeChunks bs).entries = [] := by
  unfold failuresIn
  rw [List.filter_eq_nil_iff]
  intro entry hentry
  obtain ⟨chunk, -, rfl⟩ := List.mem_map.1 hentry
  exact Bool.false_ne_true

lemma reportsFailure_unframe (raw : Wire) (countsChunks : Bool) :
    ReportsFailure (unframe raw countsChunks) := by
  unfold ReportsFailure unframe
  split_ifs
  · dsimp only
    rw [failuresIn_decodeChunks]
    cases (decodeChunks raw.toOctets).result <;> rfl
  · cases textOf raw with
    | error e => exact failuresIn_entriesOn e
    | ok s => rfl

lemma reportsFailure_decodeText (o : DecodeOptions) (s : List Char) :
    ReportsFailure (decodeText o s) := by
  unfold ReportsFailure decodeText parse
  cases ofText s with
  | error e => exact failuresIn_entriesOn e
  | ok r =>
    -- besides the text, there is at most a warning
    show failuresIn (((Reply.fatalError? { r with messageId := o.messageId } o.warningsCount).map
      (fatalEntry o.messageId)).toList) = []
    cases Reply.fatalError? { r with messageId := o.messageId } o.warningsCount <;> rfl

lemma reportsFailure_decode (o : DecodeOptions) (raw : Wire) : ReportsFailure (decode o raw) :=
  (reportsFailure_unframe raw o.countsChunks).andThen (reportsFailure_decodeText o)

/-- **What is logged about a failure.** A message is refused as no reply in one of three ways. That
its octets are no text leaves one entry at the level of errors, from the part that reads replies,
and so does that its text is no document. That the root has another name leaves no such entry.
Neither does any other outcome: a reply, broken framing, or a size that cannot be read. -/
theorem failures_of_decode (o : DecodeOptions) (raw : Wire) :
    (∀ e, (decode o raw).result = .error (.parse e) ↔ FailsToParse o raw e) ∧
    (∀ flaw s, FailsToParse o raw ⟨.notText flaw, s⟩ →
      failuresIn (decode o raw).entries =
        [⟨.error, .reply, "failed to decode rpc-reply: ".toList ++ flaw.message⟩]) ∧
    (∀ fault s, FailsToParse o raw ⟨.malformed fault, s⟩ →
      failuresIn (decode o raw).entries =
        [⟨.error, .reply, ParseError.message ⟨.malformed fault, s⟩⟩]) ∧
    (∀ name s, FailsToParse o raw ⟨.otherRoot name, s⟩ → failuresIn (decode o raw).entries = []) ∧
    ((∀ e, (decode o raw).result ≠ .error (.parse e)) →
      failuresIn (decode o raw).entries = []) := by
  have hreports := reportsFailure_decode o raw
  rw [ReportsFailure] at hreports
  have hrefused : ∀ e, FailsToParse o raw e → failuresIn (decode o raw).entries = entriesOn e := by
    intro e he
    rw [hreports, result_decode_eq_parse_iff.2 he]
    rfl
  refine ⟨fun e => result_decode_eq_parse_iff, fun flaw s h => hrefused _ h,
    fun fault s h => hrefused _ h, fun name s h => hrefused _ h, ?_⟩
  intro hnone
  rw [hreports]
  cases hresult : (decode o raw).result with
  | error e =>
    cases e with
    | parse e => exact absurd hresult (hnone e)
    | chunk e => rfl
  | ok d => rfl

/-- An octet that begins no character, and a document that is not closed. -/
theorem failures_of_decode_unreadable :
    FailsToParse ⟨none, [], some false, .ofEnvironment fun _ => none⟩ (.octets [0xFF])
        ⟨.notText ⟨0, 0xFF, 1, .start⟩, Utf8.decodeLossy [0xFF]⟩ ∧
      failuresIn (decode ⟨none, [], some false, .ofEnvironment fun _ => none⟩
          (.octets [0xFF])).entries =
        [⟨.error, .reply, ("failed to decode rpc-reply: 'utf-8' codec can't decode byte 0xff in " ++
          "position 0: invalid start byte").toList⟩] ∧
      ∃ fault, FailsToParse ⟨none, [], some true, .ofEnvironment fun _ => none⟩
          (.text "<rpc-reply>\n".toList) ⟨.malformed fault, "<rpc-reply>".toList⟩ ∧
        failuresIn (decode ⟨none, [], some true, .ofEnvironment fun _ => none⟩
            (.text "<rpc-reply>\n".toList)).entries =
          [⟨.error, .reply,
            "failed to parse rpc-reply: no element found: line 1, column 11".toList⟩] := by
  have hflaw : (Wire.octets [0xFF]).toText = .error ⟨0, 0xFF, 1, .start⟩ := by decide +kernel
  have htext : FailsToParse ⟨none, [], some false, .ofEnvironment fun _ => none⟩ (.octets [0xFF])
      ⟨.notText ⟨0, 0xFF, 1, .start⟩, Utf8.decodeLossy [0xFF]⟩ :=
    .notText rfl hflaw
  have hunframe : (unframe (.text "<rpc-reply>\n".toList) true).result
      = .ok "<rpc-reply>".toList := by decide
  have hmessage : ((Document.ofText (.ofText (trim "<rpc-reply>".toList))).map fun _ => ()).mapError
      (fun fault => ParseError.message ⟨.malformed fault, "<rpc-reply>".toList⟩)
      = .error "failed to parse rpc-reply: no element found: line 1, column 11".toList := by
    decide +kernel
  refine ⟨htext, (failures_of_decode _ _).2.1 _ _ htext, ?_⟩
  cases hfault : Document.ofText (.ofText (trim "<rpc-reply>".toList)) with
  | error fault =>
    rw [hfault] at hmessage
    have hdocument : FailsToParse ⟨none, [], some true, .ofEnvironment fun _ => none⟩
        (.text "<rpc-reply>\n".toList) ⟨.malformed fault, "<rpc-reply>".toList⟩ :=
      .malformed hunframe hfault
    refine ⟨fault, hdocument, ?_⟩
    rw [← Except.error.inj hmessage]
    exact (failures_of_decode _ _).2.2.1 _ _ hdocument
  | ok document =>
    rw [hfault] at hmessage
    cases hmessage

/-- A document with another root is refused as no reply, and no failure is logged. -/
theorem failures_of_decode_hello :
    (decode ⟨none, [], some false, .ofEnvironment fun _ => none⟩ (.text "<hello/>".toList)).result
        = .error (.parse ⟨.otherRoot "hello".toList, "<hello/>".toList⟩) ∧
      failuresIn (decode ⟨none, [], some false, .ofEnvironment fun _ => none⟩
        (.text "<hello/>".toList)).entries = [] := by
  refine ⟨?_, ?_⟩
  · decide +kernel
  · decide +kernel

end Reply

end Netconf

import Mathlib.Data.List.Forall2
import Netconf.Proofs.JoinedText
import Netconf.Proofs.LineFraming

/-!
# Replies on several lines

Where the sizes of chunks are not counted, decoding takes the line feeds out of a message. A reply
that is laid out on lines (`IsLaidOut`) says the same without them: the document is the same but for
blanks around text, which errors do not report (`errorsOf_alike`), and what is found in the text is
found in it still.
-/

namespace Netconf.Reply

open Netconf.Framing Netconf.Outcome Netconf.Text Netconf.Xml

/-! ## The errors of alike documents -/

/-- Whether two errors say the same in every field but the details, which both have or both lack. -/
structure SameUpToInfo (e e' : RpcError) : Prop where
  type : e.type = e'.type
  tag : e.tag = e'.tag
  severity : e.severity = e'.severity
  path : e.path = e'.path
  message : e.message = e'.message
  info : e.info.isSome = e'.info.isSome

/-- The same goes into a field of both. -/
lemma SameUpToInfo.set {e e' : RpcError} (h : SameUpToInfo e e') (field : RpcError.Field)
    (value : Option (List Char)) : SameUpToInfo (e.set field value) (e'.set field value) := by
  obtain ⟨htype, htag, hseverity, hpath, hmessage, hinfo⟩ := h
  cases field <;> constructor <;> first | assumption | rfl

/-- Whatever the details are. -/
lemma SameUpToInfo.setInfo {e e' : RpcError} (h : SameUpToInfo e e') (s s' : List Char) :
    SameUpToInfo (e.set .info (some s)) (e'.set .info (some s')) :=
  ⟨h.type, h.tag, h.severity, h.path, h.message, rfl⟩

/-- Alike children say the same. -/
lemma SameUpToInfo.addChild {e e' : RpcError} (h : SameUpToInfo e e')
    {child child' : Element × List Char} (hchild : AlikeChild child child') :
    SameUpToInfo (e.addChild child.1 child.2) (e'.addChild child'.1 child'.2) := by
  obtain ⟨htag, hcontent⟩ := hchild
  have hname : child.1.name = child'.1.name := congrArg Tag.name htag
  rw [RpcError.addChild, RpcError.addChild, hname]
  split_ifs
  · exact h.setInfo _ _
  · cases RpcError.fieldOfName? child'.1.name.base with
    | none => exact h
    | some field =>
      have htext : trim child.1.text = trim child'.1.text := trim_leadingText hcontent
      dsimp only
      rw [htext]
      exact h.set field _

lemma ofElement_alike {element element' : Element} (h : Alike element.content element'.content) :
    SameUpToInfo (RpcError.ofElement element) (RpcError.ofElement element') := by
  have hall : ∀ {children children' : List (Element × List Char)} {e e' : RpcError},
      List.Forall₂ AlikeChild children children' → SameUpToInfo e e' →
      SameUpToInfo (children.foldl (fun e child => e.addChild child.1 child.2) e)
        (children'.foldl (fun e child => e.addChild child.1 child.2) e') := by
    intro children children' e e' hchildren
    induction hchildren generalizing e e' with
    | nil => exact id
    | cons hchild _ ih => exact fun he => ih (he.addChild hchild)
  exact hall (children_of_alike h) ⟨rfl, rfl, rfl, rfl, rfl, rfl⟩

/-- **Alike documents report the same errors** but for the text of details. -/
theorem errorsOf_alike {root root' : Element} (h : Alike root.content root'.content) :
    List.Forall₂ SameUpToInfo (errorsOf root) (errorsOf root') := by
  have hchildren : List.Forall₂ AlikeChild root.children root'.children := children_of_alike h
  rw [errorsOf, errorsOf, errorChildren, errorChildren]
  generalize root.children = children at hchildren
  generalize root'.children = children' at hchildren
  induction hchildren with
  | nil => exact .nil
  | @cons child child' _ _ hchild _ ih =>
    have hname : child.1.name = child'.1.name := congrArg Tag.name hchild.1
    rw [List.filter_cons, List.filter_cons, hname]
    split_ifs
    · exact .cons (ofElement_alike hchild.2) ih
    · exact ih

/-! ## Decoding -/

/-- Without marker lines only the line feeds are dropped. -/
lemma dropMarkerLines_eq_joinLines {x : List Char}
    (h : ∀ line ∈ lines x, isMarkerLine line = false) : dropMarkerLines x = joinLines x :=
  dropMarkerLines_eq_filter_iff.2 h

/-- **The layout of a reply does not matter.** Let a text read as a reply, let it not stand for
units of sixteen bits, let it be laid out on lines and let no line begin like a marker. Where chunks
are not counted, the text decodes, whether it is handed over as text or as octets. The reply that
comes out reports success and errors as the one that the text reads as does, up to the text of
details, and its payload is that payload without its line feeds. -/
theorem decode_of_isLaidOut {o : DecodeOptions} {raw : Wire} {x : List Char} {r : Reply}
    (hlines : o.countsChunks = false) (hraw : raw.toText = .ok x)
    (hparse : (parse x).result = .ok r) (hunits : Char.ofNat 0 ∉ (trim x).take 2)
    (hlayout : IsLaidOut x) (hmarkers : ∀ line ∈ lines x, isMarkerLine line = false) :
    ∃ d, (decode o raw).result = .ok d ∧ d.reply.ok = r.ok ∧
      List.Forall₂ SameUpToInfo r.errors d.reply.errors ∧ d.reply.data = joinLines r.data := by
  rw [result_parse, ofText_eq_ok_iff] at hparse
  obtain ⟨document, hdocument, hname, rfl⟩ := hparse
  obtain ⟨document', hdocument', htag, halike⟩ :=
    exists_joinLines_of_ofText hunits hlayout hdocument
  have hshows : ShowsTags x :=
    showsTags_of_isLaidOut hlayout (isBracketed_of_ofText hunits hlayout hdocument)
  have hname' : document'.root.name.base = rootName := by
    rw [Element.name, htag]
    exact hname
  have hread : ofText (joinLines x) = .ok ⟨[], errorsOf document'.root,
      reportsSuccess (joinLines x), joinLines x, payload (joinLines x)⟩ :=
    ofText_eq_ok_iff.2 ⟨document', hdocument', hname', rfl⟩
  rw [decode_of_toText hlines hraw, dropMarkerLines_eq_joinLines hmarkers,
    dropEndMarker_of_document hdocument', result_decodeText, result_parse, hread]
  exact ⟨_, rfl, reportsSuccess_joinLines hshows, errorsOf_alike halike,
    payload_joinLines hshows⟩

/-- A reply with an error, a line of its own for every tag. -/
def replyWithIndent : List Char :=
  ("<?xml version='1.0'?>\n<rpc-reply>\n <rpc-error>\n  <error-message>\n a b\n  " ++
    "</error-message>\n  <error-info>\n  </error-info>\n </rpc-error>\n</rpc-reply>\n").toList

theorem decode_of_isLaidOut_replyWithIndent :
    ∃ r d, (parse replyWithIndent).result = .ok r ∧
      Char.ofNat 0 ∉ (trim replyWithIndent).take 2 ∧ IsLaidOut replyWithIndent ∧
      (∀ line ∈ lines replyWithIndent, isMarkerLine line = false) ∧
      (decode ⟨none, "7".toList, some false, .ofEnvironment fun _ => none⟩
        (.text replyWithIndent)).result = .ok d ∧
      r.errors.map (·.message) = ["a b".toList] ∧ d.reply.ok = r.ok ∧
      List.Forall₂ SameUpToInfo r.errors d.reply.errors ∧ d.reply.data = joinLines r.data := by
  have haccepted : (parse replyWithIndent).result.toOption.map (·.errors.map (·.message))
      = some ["a b".toList] := by decide +kernel
  have hunits : Char.ofNat 0 ∉ (trim replyWithIndent).take 2 := by decide +kernel
  have hlayout : IsLaidOut replyWithIndent := by decide +kernel
  have hmarkers : ∀ line ∈ lines replyWithIndent, isMarkerLine line = false := by decide +kernel
  cases hparse : (parse replyWithIndent).result with
  | error e =>
    rw [hparse] at haccepted
    cases haccepted
  | ok r =>
    rw [hparse] at haccepted
    have htext : (Wire.text replyWithIndent).toText = .ok replyWithIndent := rfl
    obtain ⟨d, hd, hok, herrors, hdata⟩ := decode_of_isLaidOut
      (o := ⟨none, "7".toList, some false, .ofEnvironment fun _ => none⟩)
      rfl htext hparse hunits hlayout hmarkers
    exact ⟨r, d, rfl, hunits, hlayout, hmarkers, hd, Option.some.inj haccepted, hok, herrors,
      hdata⟩

/-- A reply with an error in units of sixteen bits, with a line feed in units of its own. -/
def wideReplyOnLines : List Char :=
  inUnits "<rpc-reply>".toList ++ (Char.ofNat 5 :: '\n' :: (inUnits "<rpc-error/>".toList ++
    (Char.ofNat 5 :: '\n' :: inUnits "</rpc-reply>".toList)))

/-- Where a text stands for units of sixteen bits, a line feed is half of another character, and
without it the text reads differently. -/
theorem decode_wideReplyOnLines :
    ∃ r d, (parse wideReplyOnLines).result = .ok r ∧ IsLaidOut wideReplyOnLines ∧
      (∀ line ∈ lines wideReplyOnLines, isMarkerLine line = false) ∧
      (decode ⟨none, [], some false, .ofEnvironment fun _ => none⟩
        (.text wideReplyOnLines)).result = .ok d ∧
      ¬ List.Forall₂ SameUpToInfo r.errors d.reply.errors := by
  have haccepted : (parse wideReplyOnLines).result.toOption.map (·.errors.length)
      = some 1 := by decide +kernel
  have hdecoded : (decode ⟨none, [], some false, .ofEnvironment fun _ => none⟩
      (.text wideReplyOnLines)).result.toOption.map (·.reply.errors.length) = some 0 := by
    decide +kernel
  cases hparse : (parse wideReplyOnLines).result with
  | error e =>
    rw [hparse] at haccepted
    cases haccepted
  | ok r =>
    cases hd : (decode ⟨none, [], some false, .ofEnvironment fun _ => none⟩
        (.text wideReplyOnLines)).result with
    | error e =>
      rw [hd] at hdecoded
      cases hdecoded
    | ok d =>
      rw [hparse] at haccepted
      rw [hd] at hdecoded
      refine ⟨r, d, rfl, by decide +kernel, by decide +kernel, rfl, fun h => ?_⟩
      have hone : r.errors.length = 1 := Option.some.inj haccepted
      have hnone : d.reply.errors.length = 0 := Option.some.inj hdecoded
      have hlength := h.length_eq
      rw [hone, hnone] at hlength
      cases hlength

end Netconf.Reply

import Netconf.Proofs.FrameRoundTrip
import Netconf.Proofs.MessageId
import Netconf.Request.Basic

/-!
# Where the parts of a request end

The message id and the operations go into the text of a request as they are, and no character of
them is escaped. What ends a part is still found again. Each part that a request is put together
from stands between characters that are none of the end marker, so that the marker is not put
together across parts (`DelimitedBy.append_cons`): if neither the message id nor the operations
hold it, it stands behind the request and nowhere else. The quote behind the message id is the
first one if the id has none, so that the id and the operations can be read off the octets.
-/

namespace Netconf

open Netconf.Framing Netconf.Text

/-! ## Parts of a list -/

section Parts

variable {α : Type}

/-- Whether the mark behind the list stands there only. -/
def DelimitedBy (mark s : List α) : Prop := ∀ i, mark <+: (s ++ mark).drop i → i = s.length

/-- What begins in front of an item that it does not have ends in front of it. -/
lemma prefix_of_prefix_append_cons {m a b : List α} {c : α} (hc : c ∉ m)
    (h : m <+: a ++ c :: b) : m <+: a := by
  induction a generalizing m with
  | nil =>
    cases m with
    | nil => exact List.prefix_rfl
    | cons x m =>
      obtain ⟨rfl, -⟩ := List.cons_prefix_cons.1 h
      exact absurd List.mem_cons_self hc
  | cons x a ih =>
    cases m with
    | nil => exact List.nil_prefix
    | cons y m =>
      obtain ⟨rfl, hrest⟩ := List.cons_prefix_cons.1 h
      exact List.cons_prefix_cons.2 ⟨rfl, ih (fun hmem => hc (List.mem_cons_of_mem y hmem)) hrest⟩

/-- A part in front of which stands an item that the mark does not have is delimited as it is,
whatever stands in front of that item without the mark. -/
lemma DelimitedBy.append_cons {mark a b : List α} {c : α} (hc : c ∉ mark) (ha : ¬ mark <:+: a)
    (hb : DelimitedBy mark b) : DelimitedBy mark (a ++ c :: b) := by
  intro i hi
  rw [List.append_assoc, List.cons_append] at hi
  by_cases hle : i ≤ a.length
  · -- what begins in `a` would have to end there
    rw [List.drop_append_of_le_length hle] at hi
    have hinfix := (prefix_of_prefix_append_cons hc hi).isInfix.trans (List.drop_suffix i a).isInfix
    exact absurd hinfix ha
  · obtain ⟨j, rfl⟩ : ∃ j, i = a.length + (j + 1) := ⟨i - a.length - 1, by omega⟩
    rw [← List.drop_drop, List.drop_left, List.drop_succ_cons] at hi
    rw [hb j hi, List.length_append, List.length_cons]

/-- Parts that do not have the item between them are the same if the lists are. -/
lemma eq_and_eq_of_append_cons_eq {a b x y : List α} {c : α} (ha : c ∉ a) (hb : c ∉ b)
    (h : a ++ c :: x = b ++ c :: y) : a = b ∧ x = y := by
  rcases List.append_eq_append_iff.1 h with ⟨w, rfl, hw⟩ | ⟨w, rfl, hw⟩
  · cases w with
    | nil => exact ⟨(List.append_nil a).symm, (List.cons.inj hw).2⟩
    | cons d w =>
      obtain ⟨rfl, -⟩ := List.cons.inj hw
      exact absurd (List.mem_append_right a List.mem_cons_self) hb
  · cases w with
    | nil => exact ⟨List.append_nil b, (List.cons.inj hw).2.symm⟩
    | cons d w =>
      obtain ⟨rfl, -⟩ := List.cons.inj hw
      exact absurd (List.mem_append_right b List.mem_cons_self) ha

end Parts

/-- The octets of a text are delimited by the end marker as the text is. -/
lemma DelimitedBy.encode {s : List Char} (h : DelimitedBy endOfMessage s) :
    DelimitedBy (Utf8.encode endOfMessage) (Utf8.encode s) := by
  intro i hi
  rw [← Utf8.encode_append] at hi
  obtain ⟨t, u, hcut, hu, rfl⟩ := Utf8.exists_of_isPrefix_drop_encode (by decide) hi
  have hlength : t.length = s.length := by
    apply h
    rw [hcut, List.drop_left]
    exact hu
  rw [(List.append_inj hcut hlength.symm).1]

namespace Request

/-! ## What is built -/

/-- A request is built for an id that is not empty, and it has the id and the operations. -/
lemma result_build_eq_ok_iff {operations : List Operation}
    {id : Except MessageId.Shortage (Option (List Char))} {r : Request} :
    (build operations id).result = .ok r ↔
      ∃ i, i ≠ [] ∧ id = .ok (some i) ∧ r = ⟨i, operations⟩ := by
  unfold build
  rcases id with e | _ | _ | ⟨c, i⟩
  · simp [Logged.silent]
  · simp [Logged.silent]
  · simp [Logged.silent]
  · simp [Logged.noting, eq_comm]

/-- The text of a request, cut at the quotes of its start tag and at the bracket of its end tag. -/
lemma render_eq (r : Request) :
    r.render = "<rpc message-id=".toList ++ '"' :: (r.messageId ++ '"' ::
      (" xmlns=".toList ++ '"' :: (baseNamespace ++ '"' ::
        (('>' :: r.body) ++ '<' :: "/rpc>".toList)))) := by
  unfold render
  simp only [List.append_assoc]
  rfl

/-! ## The end of a request -/

/-- A request whose message id and operations do not hold the end marker does not hold it, and does
not begin one. -/
lemma delimitedBy_render {r : Request} (hid : ¬ endOfMessage <:+: r.messageId)
    (hbody : ¬ endOfMessage <:+: r.body) : DelimitedBy endOfMessage r.render := by
  have hquote : '"' ∉ endOfMessage := by decide
  have hbracket : '<' ∉ endOfMessage := by decide
  have hnone : ∀ {a : List Char}, ']' ∉ a → ¬ endOfMessage <:+: a := by
    intro a ha h
    exact ha (h.subset (by decide))
  have hcontent : ¬ endOfMessage <:+: '>' :: r.body := by
    intro h
    rcases List.infix_cons_iff.1 h with h | h
    · -- the marker begins with another bracket
      exact absurd (List.cons_prefix_cons.1 h).1 (by decide)
    · exact hbody h
  have hclosing : DelimitedBy endOfMessage "/rpc>".toList := by
    have hplaces : ∀ i < 11, endOfMessage <+: ("/rpc>".toList ++ endOfMessage).drop i → i = 5 := by
      decide
    intro i hi
    apply hplaces i _ hi
    by_contra hle
    rw [List.drop_eq_nil_of_le (Nat.le_of_not_lt hle)] at hi
    exact absurd (List.prefix_nil.1 hi) (by decide)
  rw [render_eq]
  apply DelimitedBy.append_cons hquote (hnone (by decide))
  apply DelimitedBy.append_cons hquote hid
  apply DelimitedBy.append_cons hquote (hnone (by decide))
  apply DelimitedBy.append_cons hquote (hnone (by decide))
  exact DelimitedBy.append_cons hbracket hcontent hclosing

/-- **A request for version 1.0 ends at its first marker.** If neither the message id nor the
operations put together hold the end marker, the framed request holds it in one place, its last six
octets, and what stands in front of it is the request. -/
theorem frame_build {operations : List Operation}
    {id : Except MessageId.Shortage (Option (List Char))} {r : Request}
    (hbuild : (build operations id).result = .ok r) (hid : ¬ endOfMessage <:+: r.messageId)
    (hbody : ¬ endOfMessage <:+: operations.flatMap Operation.render) (settings : Settings) :
    ∃ bs, frame (.octets r.toOctets) (some "1.0".toList) settings = .ok bs ∧
      bs = r.toOctets ++ Utf8.encode endOfMessage ∧
      (∀ i, Utf8.encode endOfMessage <+: bs.drop i ↔ i + 6 = bs.length) ∧
      ∀ before after, bs = before ++ (Utf8.encode endOfMessage ++ after) →
        before = r.toOctets ∧ after = [] := by
  obtain ⟨i, -, -, rfl⟩ := result_build_eq_ok_iff.1 hbuild
  have hdelimited : DelimitedBy (Utf8.encode endOfMessage) (toOctets ⟨i, operations⟩) :=
    DelimitedBy.encode (delimitedBy_render hid hbody)
  have hlength : (Utf8.encode endOfMessage).length = 6 := by decide
  refine ⟨toOctets ⟨i, operations⟩ ++ Utf8.encode endOfMessage, ?_, rfl, ?_, ?_⟩
  · rw [toOctets, frame_octets_encode, Reply.frame_text rfl, BaseVersion.enclose,
      Utf8.encode_append]
  · intro j
    rw [List.length_append, hlength]
    constructor
    · intro hj
      rw [hdelimited j hj]
    · intro hj
      obtain rfl : j = (toOctets ⟨i, operations⟩).length := by omega
      exact ⟨[], by rw [List.append_nil, List.drop_left]⟩
  · intro before after hcut
    have hplace : before.length = (toOctets ⟨i, operations⟩).length := by
      apply hdelimited
      rw [hcut, List.drop_left]
      exact List.prefix_append _ _
    obtain ⟨hbefore, hrest⟩ := List.append_inj hcut hplace.symm
    exact ⟨hbefore.symm, List.append_right_eq_self.1 hrest.symm⟩

/-- An id with half of the marker, and two fragments that have the other half each. -/
def halfMarkers : Request :=
  ⟨"7]]>".toList, [.raw "<a><![CDATA[x]]>".toList, .raw "]]</a>".toList]⟩

/-- Halves of the marker do not end a request. -/
theorem frame_build_halfMarkers :
    (build halfMarkers.operations (.ok (some halfMarkers.messageId))).result = .ok halfMarkers ∧
    ¬ endOfMessage <:+: halfMarkers.messageId ∧
    ¬ endOfMessage <:+: halfMarkers.operations.flatMap Operation.render ∧
    ∃ bs, frame (.octets halfMarkers.toOctets) (some "1.0".toList) (.ofEnvironment fun _ => none)
        = .ok bs ∧
      ∀ i, Utf8.encode endOfMessage <+: bs.drop i ↔ i + 6 = bs.length := by
  have hbuild : (build halfMarkers.operations (.ok (some halfMarkers.messageId))).result
      = .ok halfMarkers := rfl
  have hid : ¬ endOfMessage <:+: halfMarkers.messageId := by decide +kernel
  have hbody : ¬ endOfMessage <:+: halfMarkers.operations.flatMap Operation.render := by
    decide +kernel
  obtain ⟨bs, hframe, -, hplace, -⟩ := frame_build hbuild hid hbody (.ofEnvironment fun _ => none)
  exact ⟨hbuild, hid, hbody, bs, hframe, hplace⟩

/-! ## What the octets of a request tell -/

/-- Requests under ids without a quote have the same octets exactly if they have the same id and
the same text between the tags. -/
lemma toOctets_eq_iff {r s : Request} (hr : '"' ∉ r.messageId) (hs : '"' ∉ s.messageId) :
    r.toOctets = s.toOctets ↔ r.messageId = s.messageId ∧ r.body = s.body := by
  constructor
  · intro h
    have htext := Utf8.encode_injective h
    rw [render_eq, render_eq] at htext
    have hbehind := (List.cons.inj (List.append_cancel_left htext)).2
    obtain ⟨hid, hrest⟩ := eq_and_eq_of_append_cons_eq hr hs hbehind
    simp only [List.append_cancel_left_eq, List.append_cancel_right_eq, List.cons_append,
      List.cons.injEq, true_and] at hrest
    exact ⟨hid, hrest⟩
  · rintro ⟨hid, hbody⟩
    unfold toOctets
    rw [render_eq r, render_eq s, hid, hbody]

/-- Whatever the random octets are, they make an id that a request can have. -/
lemma result_build_fresh (random : Vector UInt8 16) (operations : List Operation) :
    (build operations ((MessageId.fresh (.ok random)).map some)).result
      = .ok ⟨MessageId.ofRandom random, operations⟩ := by
  refine result_build_eq_ok_iff.2 ⟨MessageId.ofRandom random, ?_, rfl, rfl⟩
  apply List.ne_nil_of_length_pos
  rw [MessageId.length_ofRandom]
  decide

/-- No fresh id has a quote. -/
lemma quote_not_mem_ofRandom (random : Vector UInt8 16) : '"' ∉ MessageId.ofRandom random := by
  intro hmem
  have hdigits : ∀ d < 16, '"' ≠ hexDigit d := by decide
  rcases MessageId.mem_ofRandom hmem with h | ⟨d, hd, h⟩
  · exact absurd h (by decide)
  · exact hdigits d hd h

/-- **The octets of a request tell its id and its operations.** Requests under ids without a
quote have the same octets exactly if they have the same id and the same operations put together,
whatever the operations imitate. A fresh id has no quote, so that requests under different fresh ids
never have the same octets. -/
theorem toOctets_build :
    (∀ a b X Y r s, '"' ∉ a → '"' ∉ b → (build X (.ok (some a))).result = .ok r →
      (build Y (.ok (some b))).result = .ok s →
      (r.toOctets = s.toOctets ↔
        a = b ∧ X.flatMap Operation.render = Y.flatMap Operation.render)) ∧
    (∀ v X, (build X ((MessageId.fresh (.ok v)).map some)).result
      = .ok ⟨MessageId.ofRandom v, X⟩) ∧
    ∀ random random' X Y r s, (build X ((MessageId.fresh random).map some)).result = .ok r →
      (build Y ((MessageId.fresh random').map some)).result = .ok s →
      r.messageId ≠ s.messageId → r.toOctets ≠ s.toOctets := by
  refine ⟨?_, result_build_fresh, ?_⟩
  · intro a b X Y r s ha hb hr hs
    obtain ⟨a', -, hsource, rfl⟩ := result_build_eq_ok_iff.1 hr
    obtain ⟨b', -, hsource', rfl⟩ := result_build_eq_ok_iff.1 hs
    cases hsource
    cases hsource'
    exact toOctets_eq_iff ha hb
  · intro random random' X Y r s hr hs hne hoctets
    -- without random octets nothing is built
    cases random with
    | error e => cases hr
    | ok v =>
      cases random' with
      | error e => cases hs
      | ok w =>
        rw [result_build_fresh] at hr hs
        cases hr
        cases hs
        have hparts :=
          (toOctets_eq_iff (quote_not_mem_ofRandom v) (quote_not_mem_ofRandom w)).1 hoctets
        exact hne hparts.1

-- an id with a quote can imitate the rest of the start tag
example : toOctets ⟨"7".toList, [.raw ("\" xmlns=\"".toList ++ baseNamespace ++ "\">".toList)]⟩
    = toOctets ⟨"7\" xmlns=\"".toList ++ baseNamespace ++ "\">".toList, []⟩ := by decide

/-- The same fragments cut elsewhere do not tell requests apart, and two fresh ids do. -/
theorem toOctets_build_twoFragments :
    toOctets ⟨"7".toList, [.raw "<a/>".toList, .raw "<b/>".toList]⟩
      = toOctets ⟨"7".toList, [.raw "<a/><b/>".toList]⟩ ∧
    toOctets ⟨MessageId.ofRandom (.replicate 16 0), []⟩
      ≠ toOctets ⟨MessageId.ofRandom (.replicate 16 1), []⟩ := by
  constructor
  · have hsame := toOctets_build.1 "7".toList "7".toList [.raw "<a/>".toList, .raw "<b/>".toList]
      [.raw "<a/><b/>".toList] _ _ (by decide) (by decide) rfl rfl
    exact hsame.2 ⟨rfl, rfl⟩
  · have hfresh := toOctets_build.2.1
    exact toOctets_build.2.2 (.ok (.replicate 16 0)) (.ok (.replicate 16 1)) [] [] _ _
      (hfresh _ _) (hfresh _ _) (by decide)

end Request

end Netconf

import Netconf.Proofs.ErrorInfo
import Netconf.Proofs.LineFraming
import Netconf.Proofs.TextMessages
import Netconf.Reply.Decode

/-!
# Room for elements inside one another

Details are written element by element, each from within the one around it. With limited room an
element is written as it is without a limit, or not at all, and which of the two depends on its
depth alone (`toDocumentWithin_eq`). So decoding with limited room runs out of it exactly for a
reply with deeper details, and is `decode` for every other message (`decodeWithin_of_not_outgrows`).
Some room is enough for each message (`exists_decodeWithin_eq`), but none is enough for all
(`decodeWithin_deepReply`).
-/

namespace Netconf

/-! ## Steps that may fail -/

section Guarded

variable {α β γ : Type} {fits : α → Prop} [DecidablePred fits]

/-- Two steps that each fail or not come to something if neither fails. -/
lemma bind_guarded {p q : Prop} [Decidable p] [Decidable q] (f : α → β → γ) (a : α) (b : β) :
    ((if p then some a else none) >>= fun x =>
      (if q then some b else none) >>= fun y => pure (f x y)) =
      if p ∧ q then some (f a b) else none := by
  by_cases hp : p
  · by_cases hq : q
    · rw [if_pos hp, if_pos hq, if_pos ⟨hp, hq⟩]
      rfl
    · rw [if_pos hp, if_neg hq, if_neg fun h : p ∧ q => hq h.2]
      rfl
  · rw [if_neg hp, if_neg fun h : p ∧ q => hp h.1]
    rfl

/-- Steps that fail on some items come to what they do without failing, or fail, according to
whether there is such an item. -/
lemma foldlM_guarded {step : γ → α → Option γ} {plain : γ → α → γ}
    (h : ∀ c a, step c a = if fits a then some (plain c a) else none) (l : List α) (c : γ) :
    l.foldlM step c = if ∀ a ∈ l, fits a then some (l.foldl plain c) else none := by
  induction l generalizing c with
  | nil => rfl
  | cons a l ih =>
    rw [List.foldlM_cons, h, List.foldl_cons]
    simp only [List.forall_mem_cons]
    by_cases ha : fits a
    · simp [ha, ih]
    · simp [ha]

/-- Likewise for items that are mapped one by one. -/
lemma mapM_guarded {f : α → Option β} {plain : α → β}
    (h : ∀ a, f a = if fits a then some (plain a) else none) (l : List α) :
    l.mapM f = if ∀ a ∈ l, fits a then some (l.map plain) else none := by
  induction l with
  | nil => rfl
  | cons a l ih =>
    rw [List.mapM_cons, h, ih, List.map_cons, bind_guarded List.cons]
    simp only [List.forall_mem_cons]

end Guarded

/-! ## How deep an element goes -/

namespace Xml

/-- How many elements stand inside one another in an item of content, at most. -/
def Node.depth : Node → ℕ
  | .char _ => 0
  | .element _ content => contentDepth content + 1
where
  /-- How many elements stand inside one another in content, at most. -/
  contentDepth : List Node → ℕ
    | [] => 0
    | node :: nodes => max node.depth (contentDepth nodes)

/-- How many elements stand inside one another in an element, itself included, at most. -/
def Element.depth (e : Element) : ℕ := (Node.element e.tag e.content).depth

mutual

lemma writeNodeWithin_eq (qs : Qualifiers) (room : ℕ) : ∀ node : Node,
    writeNodeWithin qs room node = if node.depth ≤ room then some (writeNode qs node) else none
  | .char c => rfl
  | .element tag content => by
    cases room with
    | zero => rfl
    | succ room =>
      rw [writeNodeWithin, writeContentWithin_eq qs room content, Node.depth, writeNode]
      simp only [Nat.add_le_add_iff_right]
      split_ifs
      · rfl
      · rfl
termination_by structural node => node

lemma writeContentWithin_eq (qs : Qualifiers) (room : ℕ) : ∀ nodes : List Node,
    writeNodeWithin.writeContentWithin qs room nodes =
      if Node.depth.contentDepth nodes ≤ room then some (writeNode.writeContent qs nodes) else none
  | [] => rfl
  | node :: nodes => by
    rw [writeNodeWithin.writeContentWithin, writeNodeWithin_eq qs room node,
      writeContentWithin_eq qs room nodes, Node.depth.contentDepth, writeNode.writeContent,
      bind_guarded (· ++ ·)]
    simp only [Nat.max_le]
termination_by structural nodes => nodes

end

/-- A child goes less deep than the element around it. -/
lemma depth_lt_of_mem_children {e : Element} {child : Element × List Char}
    (h : child ∈ e.children) : child.1.depth < e.depth := by
  have hcontent : ∀ nodes, child ∈ childrenWithTails nodes →
      child.1.depth ≤ Node.depth.contentDepth nodes := by
    intro nodes hchild
    induction nodes with
    | nil => cases hchild
    | cons node nodes ih =>
      rw [Node.depth.contentDepth]
      cases node with
      | char c => exact (ih hchild).trans (le_max_right _ _)
      | element tag content =>
        rcases List.mem_cons.1 hchild with rfl | hchild
        · exact le_max_left _ _
        · exact (ih hchild).trans (le_max_right _ _)
  exact Nat.lt_succ_of_le (hcontent e.content h)

/-- **With limited room an element is written as without a limit, or not at all.** -/
theorem toDocumentWithin_eq (room : ℕ) (e : Element) :
    e.toDocumentWithin room = if e.depth ≤ room then some e.toDocument else none := by
  cases room with
  | zero => rfl
  | succ room =>
    rw [Element.toDocumentWithin, writeContentWithin_eq, Element.depth, Node.depth]
    simp only [Nat.add_le_add_iff_right]
    split_ifs
    · rfl
    · rfl

end Xml

namespace Reply

open Netconf.Framing Netconf.Outcome Netconf.Text Netconf.Xml

/-! ## Errors -/

/-- Whether details go no deeper than there is room for. Nothing is asked of other children. -/
def FitsIn (room : ℕ) (child : Element × List Char) : Prop :=
  isDetails child = true → child.1.depth ≤ room

instance (room : ℕ) : DecidablePred (FitsIn room) := fun _ => inferInstanceAs (Decidable (_ → _))

lemma addChildWithin_eq (room : ℕ) (e : RpcError) (child : Element × List Char) :
    e.addChildWithin room child.1 child.2 =
      if FitsIn room child then some (e.addChild child.1 child.2) else none := by
  by_cases hfits : FitsIn room child
  · rw [if_pos hfits, RpcError.addChildWithin]
    split_ifs with hname
    · rw [toDocumentWithin_eq, if_pos (hfits (beq_iff_eq.2 hname)), RpcError.addChild,
        if_pos hname]
      rfl
    · rfl
  · obtain ⟨hdetails, hdeep⟩ := Classical.not_imp.1 hfits
    rw [if_neg hfits, RpcError.addChildWithin, if_pos (beq_iff_eq.1 hdetails),
      toDocumentWithin_eq, if_neg hdeep]
    rfl

/-- Whether all details in an error element fit. -/
def ErrorFitsIn (room : ℕ) (error : Element) : Prop := ∀ child ∈ error.children, FitsIn room child

instance (room : ℕ) : DecidablePred (ErrorFitsIn room) := fun _ => List.decidableBAll _ _

lemma ofElementWithin_eq (room : ℕ) (error : Element) :
    RpcError.ofElementWithin room error =
      if ErrorFitsIn room error then some (.ofElement error) else none :=
  foldlM_guarded (addChildWithin_eq room) error.children RpcError.blank

/-- **The errors of a root element are read if all their details fit**, and then they are what they
are without a limit. -/
theorem errorsWithin_eq (room : ℕ) (root : Element) :
    errorsWithin room root =
      if ∀ error ∈ errorElements root, ErrorFitsIn room error then some (errorsOf root)
      else none := by
  rw [errorsWithin, mapM_guarded (fun child => ofElementWithin_eq room child.1)]
  simp only [errorElements, List.forall_mem_map]
  rfl

/-! ## Messages -/

/-- Whether a message is a reply with details that go deeper than there is room for. -/
def Outgrows (room : ℕ) (o : DecodeOptions) (raw : Wire) : Prop :=
  ∃ s root, (unframe raw o.countsChunks).result = .ok s ∧ rootOf s = .ok root ∧
    ∃ error ∈ errorElements root, ∃ child ∈ error.children,
      isDetails child = true ∧ room < child.1.depth

lemma exists_outgrows_iff {room : ℕ} {root : Element} :
    (∃ error ∈ errorElements root, ∃ child ∈ error.children,
      isDetails child = true ∧ room < child.1.depth) ↔
      ¬ ∀ error ∈ errorElements root, ErrorFitsIn room error := by
  simp [ErrorFitsIn, FitsIn]

/-- A text with deeper details is not read. -/
lemma parseWithin_of_outgrows {room : ℕ} {s : List Char} {root : Element}
    (hroot : rootOf s = .ok root)
    (h : ¬ ∀ error ∈ errorElements root, ErrorFitsIn room error) :
    parseWithin room s = .silent (.error .outOfRoom) := by
  rw [parseWithin, hroot]
  show Logged.after _ (Logged.silent _) = _
  rw [errorsWithin_eq, if_neg h]
  rfl

/-- Any other text is read, or refused, as it is without a limit. -/
lemma parseWithin_of_fits {room : ℕ} {s : List Char}
    (h : ∀ root, rootOf s = .ok root → ∀ error ∈ errorElements root, ErrorFitsIn room error) :
    parseWithin room s = (parse s).mapError .refused := by
  rw [parseWithin, parse, ofText]
  cases hroot : rootOf s with
  | error e => rfl
  | ok root =>
    show Logged.after _ (Logged.silent _) = _
    rw [errorsWithin_eq, if_pos (h root hroot)]
    rfl

/-- Another kind of error can be given before or after decoding what was read. -/
lemma decodeParsed_mapError {ε ε' : Type} (f : ε → ε') (o : DecodeOptions) (s : List Char)
    (parsed : Logged (Except ε Reply)) :
    decodeParsed o s (parsed.mapError f) = (decodeParsed o s parsed).mapError f := by
  rw [decodeParsed, decodeParsed]
  exact congrArg _ (Logged.mapError_andThen f parsed (deliver o)).symm

/-- **A reply with deeper details is not decoded.** Its text is reported before that, and nothing
behind it. -/
theorem decodeWithin_of_outgrows {room : ℕ} {o : DecodeOptions} {raw : Wire}
    (h : Outgrows room o raw) :
    ∃ s, (unframe raw o.countsChunks).result = .ok s ∧
      decodeWithin room o raw =
        ⟨(unframe raw o.countsChunks).entries ++ [decodingEntry o.messageId s],
          .error .outOfRoom⟩ := by
  obtain ⟨s, root, hs, hroot, hdeep⟩ := h
  refine ⟨s, hs, ?_⟩
  rw [decodeWithin, Logged.mapError, hs]
  show Logged.after _ (decodeParsed o s _) = _
  rw [parseWithin_of_outgrows hroot (exists_outgrows_iff.1 hdeep)]
  rfl

/-- **Any other message is decoded, or refused, as it is without a limit**, and the same is
reported. -/
theorem decodeWithin_of_not_outgrows {room : ℕ} {o : DecodeOptions} {raw : Wire}
    (h : ¬ Outgrows room o raw) :
    decodeWithin room o raw = (decode o raw).mapError .refused := by
  rw [decodeWithin, decode, Logged.mapError_andThen]
  refine Logged.andThen_congr fun s hs => ?_
  have hparse : parseWithin room s = (parse s).mapError .refused := by
    refine parseWithin_of_fits fun root hroot => ?_
    by_contra hdeep
    exact h ⟨s, root, mapError_eq_ok_iff.1 hs, hroot, exists_outgrows_iff.2 hdeep⟩
  rw [hparse, decodeText, decodeParsed_mapError, decodeParsed_mapError, decodeParsed_mapError,
    Logged.mapError_mapError, Logged.mapError_mapError]
  rfl

/-- The room is used up exactly by such a reply. -/
lemma result_decodeWithin_eq_outOfRoom_iff {room : ℕ} {o : DecodeOptions} {raw : Wire} :
    (decodeWithin room o raw).result = .error .outOfRoom ↔ Outgrows room o raw := by
  constructor
  · intro hr
    by_contra h
    rw [decodeWithin_of_not_outgrows h, Logged.mapError] at hr
    cases hd : (decode o raw).result <;> rw [hd] at hr <;> cases hr
  · intro h
    obtain ⟨s, -, hdecode⟩ := decodeWithin_of_outgrows h
    rw [hdecode]

/-- **For each message some room is enough**: from there on it is decoded as without a limit. -/
theorem exists_decodeWithin_eq (o : DecodeOptions) (raw : Wire) :
    ∃ enough, ∀ room ≥ enough, decodeWithin room o raw = (decode o raw).mapError .refused := by
  by_cases hroot : ∃ s root, (unframe raw o.countsChunks).result = .ok s ∧ rootOf s = .ok root
  · obtain ⟨s, root, hs, hroot⟩ := hroot
    refine ⟨root.depth, fun room hroom => decodeWithin_of_not_outgrows ?_⟩
    rintro ⟨s', root', hs', hroot', error, herror, details, hdetails, -, hdeep⟩
    obtain rfl := Except.ok.inj (hs.symm.trans hs')
    obtain rfl := Except.ok.inj (hroot.symm.trans hroot')
    obtain ⟨child, hchild, rfl⟩ := List.mem_map.1 herror
    have herrorDepth := depth_lt_of_mem_children (List.mem_of_mem_filter hchild)
    have hdetailsDepth := depth_lt_of_mem_children hdetails
    omega
  · refine ⟨0, fun room _ => decodeWithin_of_not_outgrows ?_⟩
    rintro ⟨s, root, hs, hroot', -⟩
    exact hroot ⟨s, root, hs, hroot'⟩

/-! ## No room is enough for all messages -/

/-- A tag of a name in no namespace, without attributes. -/
def plainTag (name : List Char) : Tag := ⟨⟨[], name⟩, []⟩

/-- So many elements inside one another. -/
def nested : ℕ → List Node
  | 0 => []
  | n + 1 => [.element (plainTag ['a']) (nested n)]

/-- A reply with one error, whose details have so many elements inside one another. -/
def deepReply (n : ℕ) : Element :=
  ⟨plainTag rootName, [.element (plainTag "rpc-error".toList)
    [.element (plainTag "error-info".toList) (nested n)]]⟩

lemma contentDepth_nested (n : ℕ) : Node.depth.contentDepth (nested n) = n := by
  induction n with
  | zero => rfl
  | succ n ih => rw [nested, Node.depth.contentDepth, Node.depth, ih]; rfl

lemma isRead_plainTag {name : List Char} (h : IsName name) : (plainTag name).IsRead where
  space := isNamespace_nil
  base := h
  attributes := fun _ ha => absurd ha List.not_mem_nil
  nodup := List.nodup_nil

lemma namesAttributes_plainTag (name : List Char) : (plainTag name).NamesAttributes :=
  fun _ ha => absurd ha List.not_mem_nil

/-- What holds of all tags of a deep reply holds throughout it. -/
lemma throughout_deepReply {onChar : Char → Prop} {onTag : Tag → Prop}
    (h : ∀ name, IsName name → onTag (plainTag name)) (n : ℕ) :
    Throughout onChar onTag [.element (deepReply n).tag (deepReply n).content] := by
  have hnested : Throughout onChar onTag (nested n) := by
    induction n with
    | zero => exact .nil
    | succ n ih => exact .element (h _ (by decide)) ih .nil
  exact .element (h _ (by decide)) (.element (h _ (by decide))
    (.element (h _ (by decide)) hnested .nil) .nil) .nil

/-- What is written around content has no line feed of its own. -/
lemma not_mem_writeElement {name content : List Char} (hname : '\n' ∉ name)
    (hcontent : '\n' ∉ content) : '\n' ∉ writeElement [] (plainTag name) [] content := by
  have hwrite : Qualifiers.write [] (plainTag name).name = name := rfl
  rw [writeElement, hwrite]
  split_ifs
  · simp [hname, plainTag, writeAttributes]
  · simp [hname, hcontent, plainTag, writeAttributes]

/-- A deep reply is written without line feeds. -/
lemma not_mem_toDocument_deepReply (n : ℕ) : '\n' ∉ (deepReply n).toDocument := by
  have hqualifiers : ∀ n, Qualifiers.addNode.addContent [] (nested n) = [] := by
    intro n
    induction n with
    | zero => rfl
    | succ n ih => exact ih
  have hnested : '\n' ∉ writeNode.writeContent [] (nested n) := by
    induction n with
    | zero => exact List.not_mem_nil
    | succ n ih =>
      rw [nested, writeNode.writeContent, writeNode.writeContent, List.append_nil]
      exact not_mem_writeElement (by decide) ih
  have hroot : (deepReply n).qualifiers = [] := hqualifiers n
  have hnone : Qualifiers.declarations [] = [] := by simp [Qualifiers.declarations]
  have hrootName : '\n' ∉ rootName := by decide
  rw [Element.toDocument, hroot, hnone]
  refine not_mem_writeElement hrootName ?_
  rw [deepReply, writeNode.writeContent, writeNode.writeContent, List.append_nil]
  refine not_mem_writeElement (by decide) ?_
  rw [writeNode.writeContent, writeNode.writeContent, List.append_nil]
  exact not_mem_writeElement (by decide) hnested

/-- A document without line feeds is decoded as it stands. -/
lemma unframe_of_document {s : List Char} {document : Document} (hfeed : '\n' ∉ s)
    (hhead : s.head? = some '<') (h : Document.ofText (.ofText (trim s)) = .ok document)
    (countsChunks : Bool) : unframe (.text s) countsChunks = ⟨[], .ok s⟩ := by
  have hlines : looksChunked (Wire.text s).toOctets = false := by
    rw [Bool.eq_false_iff, Ne, Wire.toOctets, looksChunked_encode_iff]
    exact fun h => hfeed (h.subset List.mem_cons_self)
  have hmarker : s.head? ≠ some '#' := by
    rw [hhead]
    decide
  rw [unframe, hlines, Bool.and_false, if_neg Bool.false_ne_true]
  show (⟨[], .ok (dropEndMarker (dropMarkerLines s))⟩ : Logged (Except DecodeError (List Char))) = _
  rw [dropMarkerLines_of_not_mem hfeed hmarker, dropEndMarker_of_document h]

/-- **Whatever room there is, some reply outgrows it**, so that it is neither decoded nor
refused. -/
theorem decodeWithin_deepReply (room : ℕ) (o : DecodeOptions) :
    (decodeWithin room o (.text (deepReply room).toDocument)).result = .error .outOfRoom := by
  have htrim : trim (deepReply room).toDocument = (deepReply room).toDocument := by
    have h := trim_toDocument (deepReply room) isBlanks_nil
    rwa [escapeText, List.flatMap_nil, List.append_nil] at h
  obtain ⟨document, hdocument, hroot⟩ :=
    ofText_toDocument (throughout_deepReply (fun _ => isRead_plainTag) room)
      (throughout_deepReply (fun name _ => namesAttributes_plainTag name) room)
  rw [← htrim] at hdocument
  refine result_decodeWithin_eq_outOfRoom_iff.2
    ⟨(deepReply room).toDocument, deepReply room, ?_, ?_, ?_⟩
  · rw [unframe_of_document (not_mem_toDocument_deepReply room) rfl hdocument]
  · exact rootOf_eq_ok_iff.2 ⟨document, hdocument, hroot ▸ rfl, hroot.symm⟩
  · refine ⟨_, List.mem_singleton_self _, _, List.mem_singleton_self _, rfl, ?_⟩
    show room < Node.depth.contentDepth (nested room) + 1
    rw [contentDepth_nested]
    exact Nat.lt_succ_self room

end Reply

end Netconf

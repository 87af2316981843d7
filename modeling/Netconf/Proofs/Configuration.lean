import Netconf.Proofs.StrictFraming
import Netconf.Proofs.TextMessages

/-!
# What configuration can influence

Two flags of a call can be set in three places: for the call itself, in settings that are given to
it, and in the environment (`IsOn`). Nothing else of these places is looked at, so that calls with
the same flags decode alike. The flag for counting chunks only matters to a message that begins like
a chunk, and the flag for counting warnings only to which error is pointed out, never to the reply.
-/

namespace Netconf

open Netconf.Framing Netconf.Outcome Netconf.Text

/-! ## Flags -/

/-- Whether a flag is on: as the call says, or else as the settings that are given say, or else if
its value in the environment is the word "true" in any letter case. -/
def IsOn (choice setting : Option Bool) (value : Option (List Char)) : Prop :=
  match choice, setting, value with
  | some b, _, _ => b = true
  | none, some b, _ => b = true
  | none, none, some s => s.map Char.toLower = "true".toList
  | none, none, none => False

lemma flag_eq_true_iff {choice setting : Option Bool} {value : Option (List Char)} :
    choice.getD (setting.getD (Settings.flag value)) = true ↔ IsOn choice setting value := by
  cases choice with
  | some b => exact Iff.rfl
  | none =>
    cases setting with
    | some b => exact Iff.rfl
    | none =>
      cases value with
      | some s => exact beq_iff_eq
      | none => exact iff_of_false Bool.false_ne_true id

instance (choice setting : Option Bool) (value : Option (List Char)) :
    Decidable (IsOn choice setting value) :=
  decidable_of_iff _ flag_eq_true_iff

namespace Configuration

/-- Whether chunks are counted in a call. -/
def CountsChunks (c : Configuration) : Prop :=
  IsOn c.strictFraming (c.settings.map (·.strictFraming))
    (c.environment "NETCONF_RPC_STRICT_FRAMING".toList)

instance (c : Configuration) : Decidable c.CountsChunks := inferInstanceAs (Decidable (IsOn _ _ _))

/-- Whether warnings count as errors in a call. -/
def CountsWarnings (c : Configuration) : Prop :=
  IsOn c.errorOnWarning (c.settings.map (·.errorOnWarning))
    (c.environment "NETCONF_RPC_ERROR_ON_WARNING".toList)

instance (c : Configuration) : Decidable c.CountsWarnings :=
  inferInstanceAs (Decidable (IsOn _ _ _))

lemma countsChunks_options_iff {c : Configuration} {messageId : List Char} :
    (c.options messageId).countsChunks = true ↔ c.CountsChunks := by
  rw [CountsChunks, ← flag_eq_true_iff, DecodeOptions.countsChunks, options]
  cases c.settings <;> rfl

lemma warningsCount_options_iff {c : Configuration} {messageId : List Char} :
    (c.options messageId).warningsCount = true ↔ c.CountsWarnings := by
  rw [CountsWarnings, ← flag_eq_true_iff, DecodeOptions.warningsCount, options]
  cases c.settings <;> rfl

end Configuration

namespace Reply

/-! ## Where the flags are looked at -/

/-- Whether a message begins like a chunk: with a line feed and a number sign. -/
def BeginsLikeChunk : Wire → Prop
  | .text s => "\n#".toList <+: s
  | .octets bs => [0x0A, 0x23] <+: bs

lemma looksChunked_toOctets_iff (raw : Wire) :
    looksChunked raw.toOctets = true ↔ BeginsLikeChunk raw := by
  cases raw with
  | text s => exact looksChunked_encode_iff s
  | octets bs => exact List.isPrefixOf_iff_prefix

/-- Whether chunks are counted only matters to a message that begins like one. -/
lemma unframe_congr {raw : Wire} {b b' : Bool} (h : ¬ BeginsLikeChunk raw ∨ b = b') :
    unframe raw b = unframe raw b' := by
  rcases h with h | rfl
  · rw [← looksChunked_toOctets_iff, Bool.not_eq_true] at h
    rw [unframe, unframe, h, Bool.and_false, Bool.and_false]
  · rfl

/-- Of the options, the reply has the message id alone. -/
lemma map_reply_decoded {o o' : DecodeOptions} (hid : o.messageId = o'.messageId)
    (result : Except ParseError Reply) :
    (decoded o result).map (·.reply) = (decoded o' result).map (·.reply) := by
  cases result with
  | error e => rfl
  | ok r =>
    show Except.ok { r with messageId := o.messageId }
      = Except.ok { r with messageId := o'.messageId }
    rw [hid]

lemma map_reply_decode {o o' : DecodeOptions} {raw : Wire} (hid : o.messageId = o'.messageId)
    (hunframe : unframe raw o.countsChunks = unframe raw o'.countsChunks) :
    (decode o raw).result.map (·.reply) = (decode o' raw).result.map (·.reply) := by
  rw [decode, decode, Logged.result_andThen, Logged.result_andThen, hunframe]
  cases (unframe raw o'.countsChunks).result with
  | error e => rfl
  | ok s =>
    show (decodeText o s).result.map (·.reply) = (decodeText o' s).result.map (·.reply)
    rw [result_decodeText, result_decodeText]
    exact map_reply_decoded hid _

/-- With the same flags, a call has the same result and the same log. -/
lemma decode_congr {o o' : DecodeOptions} {raw : Wire} (hid : o.messageId = o'.messageId)
    (hwarnings : o.warningsCount = o'.warningsCount)
    (hunframe : unframe raw o.countsChunks = unframe raw o'.countsChunks) :
    decode o raw = decode o' raw := by
  have htext : decodeText o = decodeText o' := by
    funext s
    unfold decodeText decodeParsed deliver
    rw [hid, hwarnings]
  rw [decode, decode, hunframe, htext]

/-- **What configuration can influence.** Let two calls decode the same message as a reply to the
same request. If the message does not begin like a chunk, or if both calls count chunks or neither
does, they are refused with the same error or return the same reply. If moreover both count warnings
or neither does, they point out the same error, and log the same. In particular, where a call sets
both flags, on or off, neither settings nor environment matter. -/
theorem decode_of_configuration :
    (∀ (c c' : Configuration) (messageId : List Char) (raw : Wire),
      ¬ BeginsLikeChunk raw ∨ (c.CountsChunks ↔ c'.CountsChunks) →
        (decode (c.options messageId) raw).result.map (·.reply)
            = (decode (c'.options messageId) raw).result.map (·.reply) ∧
          ((c.CountsWarnings ↔ c'.CountsWarnings) →
            decode (c.options messageId) raw = decode (c'.options messageId) raw)) ∧
    ∀ (warnings chunks : Bool) (settings settings' : Option Settings)
      (environment environment' : Environment) (messageId : List Char) (raw : Wire),
      decode (Configuration.options ⟨some warnings, some chunks, settings, environment⟩ messageId) raw
        = decode (Configuration.options ⟨some warnings, some chunks, settings', environment'⟩
            messageId) raw := by
  refine ⟨?_, ?_⟩
  · intro c c' messageId raw h
    have hunframe : unframe raw (c.options messageId).countsChunks
        = unframe raw (c'.options messageId).countsChunks := by
      refine unframe_congr (h.imp_right fun hchunks => ?_)
      rw [Bool.eq_iff_iff, Configuration.countsChunks_options_iff,
        Configuration.countsChunks_options_iff]
      exact hchunks
    refine ⟨map_reply_decode rfl hunframe, ?_⟩
    intro hwarnings
    refine decode_congr rfl ?_ hunframe
    rw [Bool.eq_iff_iff, Configuration.warningsCount_options_iff,
      Configuration.warningsCount_options_iff]
    exact hwarnings
  · intro warnings chunks settings settings' environment environment' messageId raw
    exact decode_congr rfl rfl rfl

/-- A call that does not count chunks, although settings and environment say so. -/
def overruling : Configuration :=
  ⟨none, some false, some ⟨"1.0".toList, false, true⟩, fun _ => some "true".toList⟩

/-- A call that leaves everything to an environment in which one flag is set. -/
def fromEnvironment (value : String) : Configuration :=
  ⟨none, none, none, fun name =>
    if name = "NETCONF_RPC_STRICT_FRAMING".toList then some value.toList else none⟩

-- chunks that hold no text are seen through only if they are counted
example : (decode (overruling.options []) (.text "\n#1\n".toList)).result
    ≠ (decode ((fromEnvironment "True").options []) (.text "\n#1\n".toList)).result := by
  decide +kernel

/-- A flag that is off is off for whatever reason, and one that is on does not show in a message
without chunks. -/
theorem decode_of_configuration_overruling :
    (¬ overruling.CountsChunks ∧ ¬ (fromEnvironment "1").CountsChunks ∧
      ¬ overruling.CountsWarnings ∧ ¬ (fromEnvironment "1").CountsWarnings ∧
      decode (overruling.options "7".toList) (.text "\n#3\n<a/>\n##\n".toList)
        = decode ((fromEnvironment "1").options "7".toList) (.text "\n#3\n<a/>\n##\n".toList)) ∧
    (fromEnvironment "True").CountsChunks ∧ ¬ BeginsLikeChunk (.text "<rpc-reply/>".toList) ∧
      (decode (overruling.options "7".toList) (.text "<rpc-reply/>".toList)).result.map (·.reply)
        = (decode ((fromEnvironment "True").options "7".toList)
            (.text "<rpc-reply/>".toList)).result.map (·.reply) := by
  have hoff : ¬ overruling.CountsChunks := by decide
  have hoff' : ¬ (fromEnvironment "1").CountsChunks := by decide
  have hwarnings : ¬ overruling.CountsWarnings := by decide
  have hwarnings' : ¬ (fromEnvironment "1").CountsWarnings := by decide
  have hplain : ¬ BeginsLikeChunk (.text "<rpc-reply/>".toList) := by
    rw [← looksChunked_toOctets_iff]
    decide
  refine ⟨⟨hoff, hoff', hwarnings, hwarnings', ?_⟩, by decide, hplain, ?_⟩
  · exact (decode_of_configuration.1 _ _ _ _ (Or.inr (iff_of_false hoff hoff'))).2
      (iff_of_false hwarnings hwarnings')
  · exact (decode_of_configuration.1 _ _ _ _ (Or.inl hplain)).1

end Reply

end Netconf

import OutboxDispatcher.Callbacks.Parse

/-! # The messages of the parser

Every message with which a callback is rejected begins with `invalid_callback:`, whichever check it
fails (`says_invalid`). -/

namespace OutboxDispatcher.Callbacks.Messages

open OutboxDispatcher.Lib.Checks OutboxDispatcher.Lib.JsonValue OutboxDispatcher.Lib.Text
open OutboxDispatcher.Schema OutboxDispatcher.Callbacks.Fields OutboxDispatcher.Callbacks.Parse

/-- The message begins as all do. -/
def Says (msg : String) : Prop := startsWith msg "invalid_callback:"

theorem Says.append {msg : String} (h : Says msg) (t : String) : Says (msg ++ t) :=
  startsWith_append h t

theorem Says.around {msg : String} (h : Says msg) (val t : String) : Says (msg ++ val ++ t) :=
  (h.append val).append t

/-! ### Fields -/

/-- The errors of a check begin as all do. -/
abbrev Spoken {α : Type} (x : Checked α) : Prop := FailsWith (fun e => Says e.2) x

theorem spoken_parseMode (modeStr : Option String) : Spoken (parseMode modeStr) := by
  unfold parseMode
  split
  · exact .ok _
  · exact .ok _
  · exact .error (.around (startsWith_ofList rfl) _ _)

theorem spoken_parseHeaderEntries (seen : List String) (entries : List (String × Json)) :
    Spoken (parseHeaderEntries seen entries) := by
  induction entries generalizing seen with
  | nil => exact .ok []
  | cons e rest ih =>
    exact .bind (.rejectIf _ (.around (startsWith_ofList rfl) _ _)) fun _ =>
      .bind (.rejectIf _ (.around (startsWith_ofList rfl) _ _)) fun _ =>
      .bind (.rejectIf _ (.around (startsWith_ofList rfl) _ _)) fun _ =>
      .bind (.okOr _ (.around (startsWith_ofList rfl) _ _)) fun _ =>
      .bind (.rejectIf _ (.append (.around (startsWith_ofList rfl) _ _) _)) fun _ =>
      .bind (ih _) fun _ => .ok _

theorem spoken_parseHeaders (val : Option Json) : Spoken (parseHeaders val) := by
  cases val with
  | none => exact .ok []
  | some v =>
    exact .bind (.okOr _ (startsWith_ofList rfl)) fun entries =>
      spoken_parseHeaderEntries [] entries

theorem spoken_parseBounded (field : String) (notInteger outOfRange : InvalidReason) (max : ℕ)
    (v : Json) : Spoken (parseBounded field notInteger outOfRange max v) :=
  .bind (.okOr _ (.around (startsWith_ofList rfl) _ _)) fun n =>
    .bind (.rejectIf _ (.append (.around (.around (startsWith_ofList rfl) _ _) _ _) _)) fun _ =>
      .ok n

theorem spoken_parseBackoffElement (e : Json) : Spoken (parseBackoffElement e) :=
  .bind (.okOr _ (startsWith_ofList rfl)) fun n =>
      .bind (.rejectIf _ (startsWith_ofList rfl)) fun _ =>
    .bind (.rejectIf _ (.append (.around (startsWith_ofList rfl) _ _) _)) fun _ => .ok (fromSecs n)

theorem spoken_parseBackoff (val : Option Json) (default : List Duration) :
    Spoken (parseBackoff val default) := by
  cases val with
  | none => exact .ok default
  | some v =>
    exact .bind (.okOr _ (startsWith_ofList rfl)) fun arr =>
        .bind (.rejectIf _ (startsWith_ofList rfl)) fun _ =>
      .mapM spoken_parseBackoffElement arr

section

variable [Crates] {config : DispatchConfig}

theorem spoken_validateUrl (u : String) (insecure allowPrivate : Bool) :
    Spoken (validateUrl u insecure allowPrivate) := by
  have hscheme : Says (if insecure then
        s!"invalid_callback: url must use http:// or https:// scheme; got '{u}'"
      else s!"invalid_callback: url must use https:// scheme; got '{u}'") := by
    split
    · exact .around (startsWith_ofList rfl) _ _
    · exact .around (startsWith_ofList rfl) _ _
  exact .bind (.okOr _ (.around (startsWith_ofList rfl) _ _)) fun p =>
    .bind (.rejectIf _ (.around (startsWith_ofList rfl) _ _)) fun _ =>
        .bind (.rejectIf _ hscheme) fun _ =>
    .bind (.okOr _ (.around (startsWith_ofList rfl) _ _)) fun host =>
    .rejectIf _ (.append (.around (startsWith_ofList rfl) _ _) _)

theorem spoken_parseBody (obj : List (String × Json)) (name : String) (config : DispatchConfig) :
    Spoken (parseBody obj name config) := by
  have hmax : Spoken (parseMaxAttempts (obj.lookup "max_attempts") config.maxAttempts) := by
    unfold parseMaxAttempts
    split
    · exact .ok _
    · exact spoken_parseBounded _ _ _ _ _
  have htimeout : Spoken (parseTimeout (obj.lookup "timeout_seconds") config.handlerTimeout) := by
    unfold parseTimeout
    split
    · exact .ok _
    · exact .map (spoken_parseBounded _ _ _ _ _)
  have hexternal :
      Spoken (parseExternalTimeout (obj.lookup "external_completion_timeout_seconds")) := by
    unfold parseExternalTimeout
    split
    · exact .ok _
    · exact .map (spoken_parseBounded _ _ _ _ _)
  have hcycles : Spoken (parseMaxCompletionCycles (obj.lookup "max_completion_cycles")
      config.maxCompletionCycles) := by
    unfold parseMaxCompletionCycles
    split
    · exact .ok _
    · exact spoken_parseBounded _ _ _ _ _
  exact .bind (.okOr _ (startsWith_ofList rfl)) fun _ =>
      .bind (.okOr _ (startsWith_ofList rfl)) fun url =>
    .bind (spoken_validateUrl url _ _) fun _ => .bind (spoken_parseMode _) fun _ =>
    .bind (.rejectIf _ (.append (startsWith_ofList rfl) _)) fun _ =>
    .bind (spoken_parseHeaders _) fun _ =>
    .bind hmax fun _ => .bind (spoken_parseBackoff _ _) fun _ => .bind htimeout fun _ =>
    .bind hexternal fun _ => .bind hcycles fun _ =>
    .bind (.rejectIf _ (.append (startsWith_ofList rfl) _)) fun _ => .ok _

/-! ### Elements -/

theorem says_parseOneCallback (v : Json) (i : ℕ) (config : DispatchConfig) :
    FailsWith (fun r => Says r.2.2) (parseOneCallback v i config) :=
  .bind (.okOr _ (startsWith_ofList rfl)) fun obj =>
  .bind (.bind (.okOr _ (startsWith_ofList rfl)) fun _ =>
    .bind (.okOr _ (startsWith_ofList rfl)) fun name =>
    .bind (.rejectIf _ (startsWith_ofList rfl)) fun _ => .ok name) fun name =>
    .mapError (spoken_parseBody obj name config)

theorem says_verdict {seen : List String} {v : Json} {i : ℕ} {r : Rejection}
    (h : verdict config seen v i = .inr r) : Says r.2.2 := by
  unfold verdict at h
  split at h
  · split_ifs at h
    cases h
    exact startsWith_ofList rfl
  · next e he =>
    cases h
    exact says_parseOneCallback v i config _ he

/-- **Every rejection says that the callback is invalid.** -/
theorem says_invalid {json : Json} {r : Rejection} (h : r ∈ (parseCallbacks json config).invalid) :
    Says r.2.2 := by
  unfold parseCallbacks at h
  split at h
  · rw [List.mem_singleton.mp h]
    exact startsWith_ofList rfl
  · next array _ =>
    split_ifs at h
    · rw [List.mem_singleton.mp h]
      exact .append (.around (startsWith_ofList rfl) _ _) _
    · obtain ⟨seen, p, -, hp⟩ := mem_verdicts (mem_invalid_iff.mp h)
      exact says_verdict hp

end

end OutboxDispatcher.Callbacks.Messages

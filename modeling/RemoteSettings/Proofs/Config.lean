import RemoteSettings.Config.Basic
import RemoteSettings.Proofs.Duration.Words
import RemoteSettings.Proofs.Json.Printing
import RemoteSettings.Proofs.WireFormat

/-!
# Configurations are read as they are written

All fields of a configuration but one are texts, and these are written as they are.  The time that
an answer may take is written in words.

## Main definitions

* `Duration.WrittenAs` — the terms that a duration is written as, and what can be said of them.
* `Config.Reread` — what is written of a configuration is read as the configuration.

## Main results

* `Config.configurations_are_reread` — **every configuration is read as it was written**, if its
  time fits 64 bits, as does the time of every configuration that is read.
-/

namespace RemoteSettings

/-- A duration is written as terms: greater units come first and none comes twice, there is
something of each of them unless the duration is empty, each amount fits 64 bits, and they add up to
the duration. -/
structure Duration.WrittenAs (d : Duration) (ts : List Term) : Prop where
  words : d.words = " ".intercalate (ts.map Term.text)
  units : (ts.map Term.unit).Sublist TimeUnit.inUse
  pos : d.isZero = false → ∀ t ∈ ts, 0 < t.amount
  fits : ∀ t ∈ ts, t.amount < 2 ^ 64
  sum : (ts.map Term.nanos).sum = d.total

theorem Duration.writtenAs_amounts {d : Duration} (hd : d.seconds < 2 ^ 64) :
    d.WrittenAs d.amounts where
  words := d.words_eq
  units := d.units_amounts
  pos hpos _ := amount_pos_of_mem hpos
  fits _ := amount_lt_of_mem hd
  sum := d.sum_amounts

namespace Config

/-- What is written of a configuration is read as the configuration, and so is its text. -/
structure Reread (c : Config) : Prop where
  json : decode c.toJson = .ok c
  text : (Json.parse c.toJson.text).toOption.map decode = some (.ok c)

theorem decodeDuration_words {d : Duration} (hd : d.seconds < 2 ^ 64) :
    decodeDuration (.string d.words) = .ok d := by
  show (Duration.ofWords d.words).mapError Complaint.badDuration = _
  rw [Duration.ofWords_words hd]
  rfl

theorem decode_toJson {c : Config} (hc : c.timeout.seconds < 2 ^ 64) :
    decode c.toJson = .ok c := by
  have hfirst : ([("base_url", .string c.baseUrl), ("namespace", .string c.root),
      ("groups_path", .string c.groupsPath),
      ("store_name", .string c.storeName)]).foldlM record.setMember record.blank
      = .ok { c with timeout := record.blank.timeout, userAgent := record.blank.userAgent } := rfl
  have htimeout : ([("request_timeout", Json.string c.timeout.words)]).foldlM record.setMember
      { c with timeout := record.blank.timeout, userAgent := record.blank.userAgent }
      = .ok { c with userAgent := record.blank.userAgent } := by
    rw [Record.foldlM_singleton]
    show (do return { c with
      timeout := ← decodeDuration (.string c.timeout.words)
      userAgent := record.blank.userAgent }) = _
    rw [decodeDuration_words hc]
    rfl
  have huserAgent : ([("user_agent", Json.string c.userAgent)]).foldlM record.setMember
      { c with userAgent := record.blank.userAgent } = .ok c := rfl
  refine Record.decode_object ?_ rfl
  exact Record.foldlM_append (Record.foldlM_append hfirst htimeout) huserAgent

/-- What is written is JSON text; it does not nest, and there are no numbers in it. -/
theorem parse_text (c : Config) : Json.parse c.toJson.text = .ok c.toJson :=
  Json.parse_text rfl (by decide : 1 ≤ Json.maxDepth) (List.forall_mem_nil _)

/-- The time of a configuration that is read fits 64 bits. -/
theorem seconds_lt_of_decode {j : Json} {c : Config} (h : decode j = .ok c) :
    c.timeout.seconds < 2 ^ 64 := by
  refine Record.decode_induction (P := fun c => c.timeout.seconds < 2 ^ 64) (by decide) ?_ h
  intro x name i y hx _ h
  simp only [record] at h
  split at h
  case h_5 =>
    obtain ⟨d, hd, h⟩ := bind_eq_ok h
    cases h
    obtain ⟨text, -, hd⟩ := bind_eq_ok hd
    exact Duration.seconds_lt_of_ofWords (mapError_eq_ok hd)
  case h_7 =>
    cases h
    exact hx
  all_goals
    obtain ⟨_, -, h⟩ := bind_eq_ok h
    cases h
    exact hx

theorem reread {c : Config} (hc : c.timeout.seconds < 2 ^ 64) : c.Reread where
  json := decode_toJson hc
  text := by
    rw [parse_text]
    exact congrArg some (decode_toJson hc)

/-- **Every configuration is read as it was written**, if the seconds of its time fit 64 bits.  The
time is written as terms, whose amounts fit 64 bits and which add up to it.  The seconds of every
configuration that is read fit 64 bits, so that it is read again of what is written of it. -/
theorem configurations_are_reread :
    (∀ c : Config, c.timeout.seconds < 2 ^ 64 → c.Reread ∧
      c.toJson.get? "request_timeout" = some (.string c.timeout.words) ∧
      ∃ ts, c.timeout.WrittenAs ts) ∧
    ∀ j c, decode j = .ok c → c.timeout.seconds < 2 ^ 64 ∧ c.Reread := by
  refine ⟨fun c hc => ⟨reread hc, rfl, _, Duration.writtenAs_amounts hc⟩, fun j c h => ?_⟩
  have hc := seconds_lt_of_decode h
  exact ⟨hc, reread hc⟩

/-- A configuration that allows for the longest wait. -/
def longestWait : Config := { timeout := ⟨18446744073709551615, 999999999, by decide⟩ }

/-- The longest wait is written with all units, and is read again; so is a wait of a minute and a
half, which is all that is given. -/
theorem longest_wait_is_reread :
    (longestWait.timeout.words = "584542046090years 7months 15days 17h 5m 3s 999ms 999us 999ns"
      ∧ longestWait.Reread)
    ∧ ∃ c, decode (.object [("request_timeout", .string "1m 30s")]) = .ok c
      ∧ c.timeout = .ofSeconds 90 ∧ c.Reread := by
  obtain ⟨hwritten, hread⟩ := configurations_are_reread
  have hwait : longestWait.timeout.seconds < 2 ^ 64 := by decide
  have hpartial : decode (.object [("request_timeout", .string "1m 30s")])
      = .ok { timeout := .ofSeconds 90 } := rfl
  exact ⟨⟨by decide +kernel, (hwritten longestWait hwait).1⟩, _, hpartial, rfl,
    (hread _ _ hpartial).2⟩

end Config

end RemoteSettings

import DirectLink.Lib.Layers
import DirectLink.Signaling.RoomCodeDraws

/-!
# The room code field

`DLTextField` rewrites what is typed into a code field, and `NewRoomCode` draws the codes that are
typed there.  A text of the client is the list of its UTF-16 code units.
-/

namespace DirectLink

namespace RoomCodeField

/-- A JavaScript string: any sequence of code units. -/
abbrev JsString : Type := List UInt16

/-- The code units of a character. -/
def codeUnits (c : Char) : JsString :=
  if c.toNat < 0x10000 then [.ofNat c.toNat]
  else [.ofNat (0xD800 + (c.toNat - 0x10000) / 1024), .ofNat (0xDC00 + (c.toNat - 0x10000) % 1024)]

/-- A text of the server as the client has it. -/
def ofServer (s : String) : JsString := s.toList.flatMap codeUnits

/-! ### The rewriting -/

/-- `[A-Za-z0-9]`. -/
def isAlnum (u : UInt16) : Bool :=
  (65 ≤ u && u ≤ 90) || (97 ≤ u && u ≤ 122) || (48 ≤ u && u ≤ 57)

/-- `toUpperCase` on a letter or a digit. -/
def toUpperCase (u : UInt16) : UInt16 := if 97 ≤ u && u ≤ 122 then u - 32 else u

/-- The hyphen. -/
def hyphen : UInt16 := 45

/-- The upper-cased ASCII letters and digits of a text:
`text.replace(/[^A-Za-z0-9]/g, "").toUpperCase()`. -/
def letters (text : JsString) : JsString := (text.filter isAlnum).map toUpperCase

/-- A hyphen after the fourth character, if there are more. -/
def hyphenated (clean : JsString) : JsString :=
  if clean.length > 4 then clean.take 4 ++ hyphen :: clean.drop 4 else clean

/-- What `onTextEdited` leaves in a code field; with at most eleven units it is within the
`maximumLength` of the field. -/
def onTextEdited (text : JsString) : JsString := hyphenated ((letters text).take 10)

/-- The length that `JoinSessionView` and the quick join require of a code. -/
def joinLength : Nat := 11

/-- `NewRoomCode` can return the code, whatever its commands do but that a draw stays below its
bound: in every world, under every interleaving and with every failure. -/
def CanReturn (r : RedisStore) (code : String) : Prop :=
  ∃ (σ : Type) (Step : σ → (c : Cmd) → c.Reply → σ → Prop) (s s' : σ),
    (∀ s max n s', 0 < max → Step s (.randInt max) (.ok n) s' → n < max) ∧
      (newRoomCode r).Runs Step s (.ok code) s'

/-! ### Letters and digits -/

theorem isAlnum_iff {u : UInt16} : isAlnum u = true ↔
    (65 ≤ u.toNat ∧ u.toNat ≤ 90) ∨ (97 ≤ u.toNat ∧ u.toNat ≤ 122) ∨
      (48 ≤ u.toNat ∧ u.toNat ≤ 57) := by
  simp only [isAlnum, Bool.or_eq_true, Bool.and_eq_true, decide_eq_true_eq, UInt16.le_iff_toNat_le]
  exact or_assoc

theorem toUpperCase_toNat {u : UInt16} : (toUpperCase u).toNat =
    if 97 ≤ u.toNat ∧ u.toNat ≤ 122 then u.toNat - 32 else u.toNat := by
  have lower : (97 ≤ u && u ≤ 122) = true ↔ 97 ≤ u.toNat ∧ u.toNat ≤ 122 := by
    simp only [Bool.and_eq_true, decide_eq_true_eq, UInt16.le_iff_toNat_le]
    rfl
  rw [toUpperCase]
  by_cases isLower : 97 ≤ u.toNat ∧ u.toNat ≤ 122
  · have above : (32 : UInt16) ≤ u :=
      UInt16.le_iff_toNat_le.mpr (Nat.le_trans (by decide : 32 ≤ 97) isLower.1)
    rw [if_pos isLower, if_pos (lower.mpr isLower), UInt16.toNat_sub_of_le _ _ above]
    rfl
  · rw [if_neg isLower, if_neg fun holds => isLower (lower.mp holds)]

theorem isAlnum_toUpperCase {u : UInt16} (alnum : isAlnum u = true) :
    isAlnum (toUpperCase u) = true := by
  rw [isAlnum_iff] at alnum ⊢
  rw [toUpperCase_toNat]
  split
  · omega
  · exact alnum

theorem toUpperCase_toUpperCase {u : UInt16} :
    toUpperCase (toUpperCase u) = toUpperCase u := by
  apply UInt16.toNat_inj.mp
  rw [toUpperCase_toNat, if_neg]
  rw [toUpperCase_toNat]
  split <;> omega

/-- Upper-cased letters and digits only. -/
def Clean (text : JsString) : Prop := ∀ u ∈ text, isAlnum u = true ∧ toUpperCase u = u

theorem clean_letters (text : JsString) : Clean (letters text) := by
  intro u member
  obtain ⟨v, kept, rfl⟩ := List.mem_map.mp member
  have alnum := (List.mem_filter.mp kept).2
  exact ⟨isAlnum_toUpperCase alnum, toUpperCase_toUpperCase⟩

theorem letters_of_clean {text : JsString} (clean : Clean text) : letters text = text := by
  have kept : text.filter isAlnum = text := List.filter_eq_self.mpr fun u member =>
    (clean u member).1
  rw [letters, kept]
  calc text.map toUpperCase = text.map id :=
        List.map_congr_left fun u member => (clean u member).2
    _ = text := List.map_id text

theorem length_letters (text : JsString) : (letters text).length = text.countP isAlnum := by
  rw [letters, List.length_map, List.countP_eq_length_filter]

theorem letters_append (a b : JsString) : letters (a ++ b) = letters a ++ letters b := by
  rw [letters, List.filter_append, List.map_append]
  rfl

theorem letters_hyphen (text : JsString) : letters (hyphen :: text) = letters text := by
  have dropped : isAlnum hyphen = false := by decide
  rw [letters, List.filter_cons_of_neg (by rw [dropped]; decide)]
  rfl

/-! ### The rewriting of a text -/

/-- The hyphen is put in and taken out again. -/
theorem letters_hyphenated (text : JsString) : letters (hyphenated text) = letters text := by
  rw [hyphenated]
  split
  · rw [letters_append, letters_hyphen, ← letters_append, List.take_append_drop]
  · rfl

theorem length_hyphenated (text : JsString) :
    (hyphenated text).length = if 4 < text.length then text.length + 1 else text.length := by
  rw [hyphenated]
  split
  · rw [List.length_append, List.length_cons, List.length_take, List.length_drop]
    omega
  · rfl

/-- What is rewritten already stays as it is. -/
theorem onTextEdited_hyphenated {text : JsString} (clean : Clean text) (short : text.length ≤ 10) :
    onTextEdited (hyphenated text) = hyphenated text := by
  rw [onTextEdited, letters_hyphenated, letters_of_clean clean, List.take_of_length_le short]

theorem onTextEdited_idempotent (text : JsString) :
    onTextEdited (onTextEdited text) = onTextEdited text := by
  refine onTextEdited_hyphenated ?_ (List.length_take_le ..)
  intro u member
  exact clean_letters text u (List.mem_of_mem_take member)

theorem onTextEdited_congr {text text' : JsString} (same : letters text = letters text') :
    onTextEdited text = onTextEdited text' :=
  congrArg (fun clean : JsString => hyphenated (clean.take 10)) same

theorem length_onTextEdited (text : JsString) : (onTextEdited text).length =
    if 4 < (text.countP isAlnum) then min 10 (text.countP isAlnum) + 1
    else text.countP isAlnum := by
  rw [onTextEdited, length_hyphenated, List.length_take, length_letters]
  split <;> split <;> omega

/-! ### The codes of the server -/

variable {r : RedisStore} {code : String}

theorem runs_newRoomCodeFrom {σ : Type} {Step : σ → (c : Cmd) → c.Reply → σ → Prop} {s s' : σ}
    {attempts : Nat} (bounded : ∀ s max n s', 0 < max → Step s (.randInt max) (.ok n) s' → n < max)
    (run : (newRoomCodeFrom r attempts).Runs Step s (.ok code) s') :
    ∃ n < 1000000, code = roomCodeOf n := by
  induction attempts generalizing s with
  | zero => cases run
  | succ attempts ih =>
    rw [newRoomCodeFrom] at run
    obtain ⟨reply, s₁, drawn, run⟩ := Prog.runs_bind.mp run
    cases drawn with
    | call step done =>
      cases done
      cases reply with
      | error err => cases run
      | ok n =>
        obtain ⟨found, s₂, _, run⟩ := Prog.runs_bind.mp run
        cases found with
        | ok session => exact ih run
        | error err =>
          dsimp only at run
          split at run
          · cases run
            exact ⟨n, bounded _ _ _ _ (by decide) step, rfl⟩
          · cases run

/-- The codes that can be returned are those of the draws below one million. -/
theorem canReturn_iff : CanReturn r code ↔ ∃ n < 1000000, code = roomCodeOf n := by
  constructor
  · intro holds
    rcases holds with ⟨σ, Step, s, s', bounded, run⟩
    exact runs_newRoomCodeFrom bounded run
  · intro holds
    rcases holds with ⟨n, lt, rfl⟩
    have unmapped : Unmapped Redis.Db.empty (drawn (fun _ => n) 0) := rfl
    have code : draw Redis.Db.empty maxRoomAttempts (fun _ => n) = .ok (roomCodeOf n) := by
      rw [maxRoomAttempts, draw_of_unmapped unmapped, drawn, Nat.mod_eq_of_lt lt]
    obtain ⟨w', run⟩ := (@newRoomCode_returns r (.empty 0 fun _ => n) typed_empty).1
    replace run : (newRoomCode r).Runs Performs (.empty 0 fun _ => n) (.ok (roomCodeOf n)) w' := by
      rwa [← code]
    refine ⟨World, Performs, .empty 0 fun _ => n, w', ?_, run⟩
    intro w max m w' positive holds
    rcases holds with ⟨same, _⟩
    cases same
    exact Nat.mod_lt _ positive

theorem codeUnits_of_isDigit {c : Char} (digit : c.isDigit = true) :
    ∃ u, codeUnits c = [u] ∧ isAlnum u = true ∧ toUpperCase u = u := by
  have range : 48 ≤ c.toNat ∧ c.toNat ≤ 57 := Char.isDigit_iff_toNat.mp digit
  have unit : (UInt16.ofNat c.toNat).toNat = c.toNat := by
    rw [UInt16.toNat_ofNat']
    omega
  refine ⟨.ofNat c.toNat, if_pos (by omega), ?_, ?_⟩
  · rw [isAlnum_iff, unit]
    omega
  · apply UInt16.toNat_inj.mp
    rw [toUpperCase_toNat, unit]
    split <;> omega

theorem clean_digits {cs : List Char} (digits : ∀ c ∈ cs, c.isDigit = true) :
    Clean (cs.flatMap codeUnits) ∧ (cs.flatMap codeUnits).length = cs.length := by
  induction cs with
  | nil => exact ⟨fun _ member => (by cases member), rfl⟩
  | cons c cs ih =>
    obtain ⟨u, unit, clean⟩ := codeUnits_of_isDigit (digits c List.mem_cons_self)
    obtain ⟨rest, length⟩ := ih fun c' member => digits c' (List.mem_cons_of_mem _ member)
    rw [List.flatMap_cons, unit, List.singleton_append, List.length_cons, length]
    exact ⟨List.forall_mem_cons.mpr ⟨clean, rest⟩, rfl⟩

/-- The code units of `ROOM`. -/
def room : JsString := [82, 79, 79, 77]

theorem clean_room : Clean room := by
  intro u member
  simp only [room, List.mem_cons, List.not_mem_nil, or_false] at member
  rcases member with rfl | rfl | rfl | rfl
  all_goals decide

theorem ofServer_room (cs : List Char) : ofServer (String.ofList ("ROOM-".toList ++ cs)) =
    room ++ hyphen :: cs.flatMap codeUnits := by
  have units : "ROOM-".toList.flatMap codeUnits = room ++ [hyphen] := by decide
  rw [ofServer, String.toList_ofList, List.flatMap_append, units, List.append_assoc]
  rfl

theorem hyphenated_room {number : JsString} (length : number.length = 6) :
    hyphenated (room ++ number) = room ++ hyphen :: number := by
  rw [hyphenated, if_pos]
  · rfl
  · rw [List.length_append, length]
    decide

/-- A code of the server is `ROOM` and six digits, hyphenated. -/
theorem ofServer_roomCodeOf (n : Nat) :
    ∃ clean, Clean clean ∧ clean.length = 10 ∧ ofServer (roomCodeOf n) = hyphenated clean := by
  have decimal : ∀ c ∈ fixedDigits 6 n, c.isDigit = true :=
    fun _ member => isDigit_of_mem_fixedDigits member
  obtain ⟨digits, length⟩ := clean_digits decimal
  rw [length_fixedDigits] at length
  refine ⟨room ++ (fixedDigits 6 n).flatMap codeUnits, ?_, ?_, ?_⟩
  · exact List.forall_mem_append.mpr ⟨clean_room, digits⟩
  · rw [List.length_append, length]
    rfl
  · rw [hyphenated_room length]
    exact ofServer_room (fixedDigits 6 n)

/-- The field takes every code of the server as it is, and yields it for every text with its
letters and digits. -/
theorem onTextEdited_code (returned : CanReturn r code) :
    onTextEdited (ofServer code) = ofServer code ∧
      ∀ text, letters text = letters (ofServer code) → onTextEdited text = ofServer code := by
  obtain ⟨n, _, rfl⟩ := canReturn_iff.mp returned
  obtain ⟨clean, isClean, length, same⟩ := ofServer_roomCodeOf n
  have fixed : onTextEdited (ofServer (roomCodeOf n)) = ofServer (roomCodeOf n) := by
    rw [same]
    exact onTextEdited_hyphenated isClean (Nat.le_of_eq length)
  exact ⟨fixed, fun text letters => (onTextEdited_congr letters).trans fixed⟩

/-- The field and the server agree: the rewriting is idempotent, looks at letters and digits only,
has the length that is required from ten of them on, and fixes every code there can be. -/
theorem field_agrees_with_codes :
    (∀ text, onTextEdited (onTextEdited text) = onTextEdited text) ∧
      (∀ text text', letters text = letters text' → onTextEdited text = onTextEdited text') ∧
      (∀ text, (onTextEdited text).length ≤ 11) ∧
      (∀ text, (onTextEdited text).length = joinLength ↔ 10 ≤ text.countP isAlnum) ∧
      ∀ r code, CanReturn r code → onTextEdited (ofServer code) = ofServer code ∧
        ∀ text, letters text = letters (ofServer code) → onTextEdited text = ofServer code := by
  refine ⟨onTextEdited_idempotent, fun _ _ => onTextEdited_congr, ?_, ?_,
    fun _ _ => onTextEdited_code⟩
  · intro text
    rw [length_onTextEdited]
    split <;> omega
  · intro text
    rw [length_onTextEdited, joinLength]
    split <;> omega

end RoomCodeField

end DirectLink

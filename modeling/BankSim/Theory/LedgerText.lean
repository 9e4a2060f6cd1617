import BankSim.Core.LedgerText
import BankSim.Library.Columns
import BankSim.Theory.Ledger
import BankSim.Theory.MoneyText
import BankSim.Theory.Operations

/-!
# Ledger Text Is Faithful

A reader of the timeline can tell every entry's number, direction and signed
amount from it, however long numbers and amounts become: columns may shift, but
the fields of a line keep apart by the kind of their characters. A reader of the
replay can tell the same, and the balance after each step and at the end.

The two texts are read without each other, and each determines the other. The
balances of the replay are the sums of the amounts that the timeline lists.

## Main definitions

* `timelineRow`: What a line of the timeline says.
* `replaySteps`: What the lines of a replay say.
* `readTimeline`, `readReplay`, `readBalance`: The readers.

## Theorems

* `readRow_timelineLine`, `readStep_replayLine`: A line is read back.
* `readTimeline_describeLedger`: A timeline is read back.
* `describeReplay_ok`: The replay of a well formed ledger, as a text.
* `readReplay_lines`: A replay is read back.
* `ledgerText_faithful`: Both texts say the same, and say it all.
-/

namespace BankSim

open Columns Exec

/-- What a line of the timeline says: number, direction and signed amount. -/
def timelineRow (entry : LedgerEntry) : Nat × EntryType × Int :=
  (entry.sequence.toNat, entry.entryType, entry.signedCents)

/-- What the lines of a replay say: the rows with the balance after each. -/
def replaySteps : Int → List LedgerEntry → List ((Nat × EntryType × Int) × Int)
  | _, [] => []
  | balance, entry :: entries =>
      (timelineRow entry, balance + entry.signedCents) ::
        replaySteps (balance + entry.signedCents) entries

/-! ### Readers -/

/-- The direction with a name. -/
def EntryType.ofName (name : List Char) : Option EntryType :=
  if name = EntryType.credit.value.toList then some .credit
  else if name = EntryType.debit.value.toList then some .debit
  else none

/-- A number in front of a line, and the rest. -/
def readNumber (line : List Char) : Nat × List Char :=
  (Nat.ofDigitChars 10 (line.takeWhile Char.isDigit) 0, line.dropWhile Char.isDigit)

/-- A line of the timeline: three fields, the last two separated by blanks. -/
def readRow (line : List Char) : Option (Nat × EntryType × Int) :=
  let number := readNumber line
  let rest := number.2.dropWhile (· = ' ')
  let amount := (rest.dropWhile Char.isAlpha).dropWhile (· = ' ')
  match EntryType.ofName (rest.takeWhile Char.isAlpha), parseMoney (String.ofList amount) with
  | some kind, some cents => some (number.1, kind, cents)
  | _, _ => none

/-- A line of a replay: five words. -/
def readStep (line : List Char) : Option ((Nat × EntryType × Int) × Int) :=
  match line.splitOn ' ' with
  | [number, name, amount, _, balance] =>
      match EntryType.ofName name, parseMoney (String.ofList amount),
          parseMoney (String.ofList balance) with
      | some kind, some cents, some total => some (((readNumber number).1, kind, cents), total)
      | _, _, _ => none
  | _ => none

/-- The rows of a timeline, which come after its heading. -/
def readTimeline (text : String) : Option (List (Nat × EntryType × Int)) :=
  (text.toList.splitOn '\n').tail.mapM readRow

/-- The steps of a replay and its final balance: there is a heading before the
    steps, and two lines stand between them and the final balance. -/
def readReplay (text : String) : Option (List ((Nat × EntryType × Int) × Int) × Int) :=
  let lines := (text.toList.splitOn '\n').tail
  match (lines.take (lines.length - 3)).mapM readStep,
      parseMoney (String.ofList (lines.getLast?.getD [])) with
  | some steps, some total => some (steps, total)
  | _, _ => none

/-- The figure behind the colon of a line. -/
def readFigure (line : List Char) : Option Int :=
  parseMoney (String.ofList (((line.dropWhile (· ≠ ':')).drop 1).dropWhile (· = ' ')))

/-- The four figures of a projection, each behind the colon of its line. -/
def readBalance (text : String) : Option BalanceProjection :=
  match (text.toList.splitOn '\n').map readFigure with
  | [some current, some debits, some credits, some available] =>
      some ⟨current, debits, credits, available⟩
  | _ => none

/-! ### The fields of a line -/

theorem ofName_value (kind : EntryType) : EntryType.ofName kind.value.toList = some kind := by
  unfold EntryType.ofName
  cases kind with
  | credit => rw [if_pos rfl]
  | debit => rw [if_neg fun h => absurd (String.toList_injective h) (by decide), if_pos rfl]

/-- Every character of a name is a letter. -/
theorem isAlpha_value (kind : EntryType) : ∀ c ∈ kind.value.toList, c.isAlpha = true := by
  cases kind <;> simp [EntryType.value]

theorem ne_of_isAlpha {c d : Char} (hc : c.isAlpha = true) (hd : d.isAlpha = false) : c ≠ d := by
  rintro rfl
  rw [hc] at hd
  cases hd

theorem toString_sequence (entry : LedgerEntry) :
    (toString entry.sequence).toList = Nat.toDigits 10 entry.sequence.toNat := by
  have hpos := entry.sequence_pos
  have hcast : entry.sequence = (entry.sequence.toNat : Int) := by omega
  generalize entry.sequence.toNat = k at hcast ⊢
  rw [hcast]
  change (Nat.repr k).toList = _
  rw [Nat.repr, String.toList_ofList]

theorem isDigit_sequence (entry : LedgerEntry) :
    ∀ c ∈ (toString entry.sequence).toList, c.isDigit = true := by
  intro c hc
  rw [toString_sequence] at hc
  exact Nat.isDigit_of_mem_toDigits (by decide) (by decide) hc

/-- The characters of an amount: digits, and the marks of the format. -/
theorem mem_formatMoney {cents : Int} {showSign : Bool} {c : Char}
    (hc : c ∈ (formatMoney cents showSign).toList) :
    c.isDigit = true ∨ c ∈ ['-', '+', '$', ',', '.'] := by
  have hdigits : ∀ {n : Nat} {d : Char}, d ∈ Nat.toDigits 10 n → d.isDigit = true :=
    fun hd => Nat.isDigit_of_mem_toDigits (by decide) (by decide) hd
  rw [formatMoney_toList] at hc
  rcases List.mem_append.mp hc with hsign | hc
  · right
    split_ifs at hsign <;> simp_all
  · rcases List.mem_cons.mp hc with rfl | hc
    · exact Or.inr (by decide)
    · rcases List.mem_append.mp hc with hdollars | hc
      · rw [thousands, String.toList_ofList] at hdollars
        rcases Decimals.mem_grouped hdollars with hd | rfl
        · exact Or.inl (hdigits hd)
        · exact Or.inr (by decide)
      · rcases List.mem_cons.mp hc with rfl | hcents
        · exact Or.inr (by decide)
        · rw [twoDigits_toList _ (Nat.mod_lt _ (by decide))] at hcents
          simp only [List.mem_cons, List.not_mem_nil, or_false] at hcents
          rcases hcents with rfl | rfl
          · exact Or.inl (isDigit_digitChar (by omega))
          · exact Or.inl (isDigit_digitChar (by omega))

/-- No character of an amount is a letter, a blank or the end of a line. -/
theorem formatMoney_ne {cents : Int} {showSign : Bool} {d : Char} (hdigit : d.isDigit = false)
    (hmark : d ∉ ['-', '+', '$', ',', '.']) :
    ∀ c ∈ (formatMoney cents showSign).toList, c ≠ d := by
  rintro c hc rfl
  rcases mem_formatMoney hc with h | h
  · rw [hdigit] at h
    cases h
  · exact hmark h

theorem formatMoney_toList_head (cents : Int) (showSign : Bool) :
    ∃ c rest, (formatMoney cents showSign).toList = c :: rest ∧ c.isAlpha = false := by
  rw [formatMoney_toList]
  split_ifs
  · exact ⟨_, _, rfl, by decide⟩
  · exact ⟨_, _, rfl, by decide⟩
  · exact ⟨_, _, rfl, by decide⟩

/-- A name starts with a letter, which is no digit and no blank. -/
theorem value_toList_head (kind : EntryType) :
    ∃ c rest, kind.value.toList = c :: rest ∧ c.isDigit = false ∧ c ≠ ' ' := by
  cases kind with
  | credit => exact ⟨'C', _, rfl, by decide, by decide⟩
  | debit => exact ⟨'D', _, rfl, by decide, by decide⟩

/-- The number in front of a line is read up to what is no digit. -/
theorem readNumber_sequence (entry : LedgerEntry) {rest : List Char}
    (hrest : Stops Char.isDigit rest) :
    readNumber ((toString entry.sequence).toList ++ rest) = (entry.sequence.toNat, rest) := by
  unfold readNumber
  rw [takeWhile_field (isDigit_sequence entry) hrest, dropWhile_field (isDigit_sequence entry) hrest,
    toString_sequence, Nat.ofDigitChars_ten_toDigits]

/-- A line is read field by field, however much padding there is. -/
theorem readRow_fields (entry : LedgerEntry) (before between : Nat) :
    readRow ((toString entry.sequence).toList ++ (List.replicate before ' ' ++
        (entry.entryType.value.toList ++ (List.replicate between ' ' ++
          (formatMoney entry.signedCents true).toList))))
      = some (timelineRow entry) := by
  rcases value_toList_head entry.entryType with ⟨initial, letters, hname, hdigit, hblank⟩
  rcases formatMoney_toList_head entry.signedCents true with ⟨sign, digits, htext, hsign⟩
  have hamount : Stops Char.isAlpha (List.replicate between ' ' ++
      (formatMoney entry.signedCents true).toList) :=
    stops_padding (by decide) (htext ▸ stops_cons hsign digits) between
  have hmoney : Stops (· = ' ') (formatMoney entry.signedCents true).toList :=
    stops_of_ne (formatMoney_ne (by decide) (by decide))
  have hstart : Stops (· = ' ') (entry.entryType.value.toList ++ (List.replicate between ' ' ++
      (formatMoney entry.signedCents true).toList)) := by
    rw [hname]
    exact @stops_cons _ (· = ' ') initial (decide_eq_false hblank) _
  have hnumber : Stops Char.isDigit (List.replicate before ' ' ++
      (entry.entryType.value.toList ++ (List.replicate between ' ' ++
        (formatMoney entry.signedCents true).toList))) := by
    refine stops_padding (by decide) ?_ before
    rw [hname]
    exact stops_cons hdigit _
  unfold readRow
  simp only [readNumber_sequence entry hnumber, dropWhile_padding hstart,
    takeWhile_field (isAlpha_value entry.entryType) hamount,
    dropWhile_field (isAlpha_value entry.entryType) hamount, dropWhile_padding hmoney,
    ofName_value, String.ofList_toList, parseMoney_formatMoney]
  rfl

theorem readRow_timelineLine (entry : LedgerEntry) :
    readRow (timelineLine entry).toList = some (timelineRow entry) := by
  -- The padding behind the name and the padding in front of the amount are one.
  have hfields := readRow_fields entry (5 - (toString entry.sequence).toList.length)
    ((10 - entry.entryType.value.toList.length) +
      (10 - (formatMoney entry.signedCents true).toList.length))
  rw [List.replicate_add, List.append_assoc] at hfields
  unfold timelineLine ljust rjust
  simp only [String.toList_append, String.toList_ofList, List.rightpad, List.leftpad,
    List.append_assoc]
  exact hfields

/-- No line of a timeline holds the end of a line. -/
theorem timelineLine_ne (entry : LedgerEntry) : ∀ c ∈ (timelineLine entry).toList, c ≠ '\n' := by
  have hnumber : ∀ c ∈ (toString entry.sequence).toList, c ≠ '\n' := fun c hc =>
    Decimals.isDigit_ne (isDigit_sequence entry c hc) (by decide)
  have hname : ∀ c ∈ entry.entryType.value.toList, c ≠ '\n' := fun c hc =>
    ne_of_isAlpha (isAlpha_value _ c hc) (by decide)
  have hmoney : ∀ c ∈ (formatMoney entry.signedCents true).toList, c ≠ '\n' :=
    formatMoney_ne (by decide) (by decide)
  have hpad : ∀ n, ∀ c ∈ List.replicate n ' ', c ≠ '\n' := by
    intro n c hc
    rw [List.eq_of_mem_replicate hc]
    decide
  unfold timelineLine ljust rjust
  intro c hc
  simp only [String.toList_append, String.toList_ofList, List.rightpad, List.leftpad,
    List.mem_append] at hc
  rcases hc with ((hc | hc) | hc | hc) | hc | hc
  · exact hnumber c hc
  · exact hpad _ c hc
  · exact hname c hc
  · exact hpad _ c hc
  · exact hpad _ c hc
  · exact hmoney c hc

/-! ### Texts -/

/-- Reading lines that are each read back. -/
theorem mapM_read {α β : Type} {read : List Char → Option β} {write : α → String} {value : α → β}
    (h : ∀ a, read (write a).toList = some (value a)) (items : List α) :
    ((items.map write).map String.toList).mapM read = some (items.map value) := by
  induction items with
  | nil => rfl
  | cons a items ih =>
      rw [List.map_cons, List.map_cons, List.mapM_cons, h, ih]
      rfl

/-- The lines of a text are found again. -/
theorem splitOn_lines {lines : List String} (hne : lines ≠ [])
    (h : ∀ line ∈ lines, ∀ c ∈ line.toList, c ≠ '\n') :
    ("\n".intercalate lines).toList.splitOn '\n' = lines.map String.toList := by
  rw [String.toList_intercalate]
  refine splitOn_joined (by simpa using hne) fun line hline => ?_
  rcases List.mem_map.mp hline with ⟨text, htext, rfl⟩
  exact h text htext

theorem readTimeline_describeLedger (ledger : Ledger) :
    readTimeline (describeLedger ledger) = some (ledger.entries.map timelineRow) := by
  unfold readTimeline describeLedger
  rw [splitOn_lines (List.cons_ne_nil _ _)]
  · rw [List.map_cons, List.tail_cons]
    exact mapM_read readRow_timelineLine ledger.entries
  · intro line hline
    rcases List.mem_cons.mp hline with rfl | hline
    · simp
    · rcases List.mem_map.mp hline with ⟨entry, -, rfl⟩
      exact timelineLine_ne entry

/-- The words of a line of a replay. -/
theorem replayLine_toList (entry : LedgerEntry) (balance : Int) :
    (replayLine entry balance).toList = [' '].intercalate
      [ (toString entry.sequence).toList ++ ['.'], entry.entryType.value.toList,
        (formatMoney entry.signedCents true).toList, ['→'],
        (formatMoney balance false).toList ] := by
  have harrow : " → ".toList = [' ', '→', ' '] := by simp
  unfold replayLine
  simp only [String.toList_append, harrow, List.intercalate]
  simp

theorem readStep_replayLine (entry : LedgerEntry) (balance : Int) :
    readStep (replayLine entry balance).toList = some (timelineRow entry, balance) := by
  have hmoney : ∀ cents showSign, ∀ c ∈ (formatMoney cents showSign).toList, c ≠ ' ' :=
    fun _ _ => formatMoney_ne (by decide) (by decide)
  have hname : ∀ c ∈ entry.entryType.value.toList, c ≠ ' ' := fun c hc =>
    ne_of_isAlpha (isAlpha_value _ c hc) (by decide)
  have hnumber : ∀ c ∈ (toString entry.sequence).toList ++ ['.'], c ≠ ' ' := by
    intro c hc
    rcases List.mem_append.mp hc with hc | hc
    · exact Decimals.isDigit_ne (isDigit_sequence entry c hc) (by decide)
    · rw [List.mem_singleton.mp hc]
      decide
  have hread := readNumber_sequence entry (stops_cons (by decide : '.'.isDigit = false) [])
  unfold readStep
  rw [replayLine_toList, splitOn_joined (List.cons_ne_nil _ _)]
  · simp only [ofName_value, String.ofList_toList, parseMoney_formatMoney, hread]
    rfl
  · intro word hword
    simp only [List.mem_cons, List.not_mem_nil, or_false] at hword
    rcases hword with rfl | rfl | rfl | rfl | rfl
    · exact hnumber
    · exact hname
    · exact hmoney _ _
    · simp
    · exact hmoney _ _

theorem replayLine_ne (entry : LedgerEntry) (balance : Int) :
    ∀ c ∈ (replayLine entry balance).toList, c ≠ '\n' := by
  have hmoney : ∀ cents showSign, ∀ c ∈ (formatMoney cents showSign).toList, c ≠ '\n' :=
    fun _ _ => formatMoney_ne (by decide) (by decide)
  have hplain : ∀ text ∈ [". ", " ", " → "], ∀ c ∈ text.toList, c ≠ '\n' := by
    simp
  intro c hc
  unfold replayLine at hc
  simp only [String.toList_append, List.mem_append] at hc
  rcases hc with (((((hc | hc) | hc) | hc) | hc) | hc) | hc
  · exact Decimals.isDigit_ne (isDigit_sequence entry c hc) (by decide)
  · exact hplain ". " (by simp) c hc
  · exact ne_of_isAlpha (isAlpha_value _ c hc) (by decide)
  · exact hplain " " (by simp) c hc
  · exact hmoney _ _ c hc
  · exact hplain " → " (by simp) c hc
  · exact hmoney _ _ c hc

/-- The lines of a replay are read back, from any running balance. -/
theorem mapM_replayLines (entries : List LedgerEntry) (balance : Int) :
    ((replayLines balance entries).map String.toList).mapM readStep
      = some (replaySteps balance entries) := by
  induction entries generalizing balance with
  | nil => rfl
  | cons entry entries ih =>
      rw [replayLines, List.map_cons, List.mapM_cons, readStep_replayLine, ih]
      rfl

theorem replayLines_ne (entries : List LedgerEntry) (balance : Int) :
    ∀ line ∈ replayLines balance entries, ∀ c ∈ line.toList, c ≠ '\n' := by
  induction entries generalizing balance with
  | nil => exact fun line hline => absurd hline List.not_mem_nil
  | cons entry entries ih =>
      intro line hline
      rcases List.mem_cons.mp hline with rfl | hline
      · exact replayLine_ne entry _
      · exact ih _ line hline

/-- The replay of a well formed ledger, as a text. -/
theorem describeReplay_ok {ledger : Ledger} (h : ledger.WellFormed) :
    describeReplay ledger = .ok ("\n".intercalate ("Ledger replay" ::
      replayLines 0 ledger.entries ++
        ["", "Final balance:", formatMoney (totalCents ledger.entries) false])) := by
  unfold describeReplay
  rw [replay_eq_sum h]
  rfl

theorem readReplay_lines (entries : List LedgerEntry) (total : Int) :
    readReplay ("\n".intercalate ("Ledger replay" :: replayLines 0 entries ++
        ["", "Final balance:", formatMoney total false]))
      = some (replaySteps 0 entries, total) := by
  have hlines : ∀ line ∈ "Ledger replay" :: replayLines 0 entries ++
      ["", "Final balance:", formatMoney total false], ∀ c ∈ line.toList, c ≠ '\n' := by
    intro line hline
    simp only [List.cons_append, List.mem_cons, List.mem_append, List.not_mem_nil, or_false]
      at hline
    rcases hline with rfl | hline | rfl | rfl | rfl
    · simp
    · exact replayLines_ne entries 0 line hline
    · simp
    · simp
    · exact formatMoney_ne (by decide) (by decide)
  have htail : ((("\n".intercalate ("Ledger replay" :: replayLines 0 entries ++
        ["", "Final balance:", formatMoney total false])).toList).splitOn '\n').tail
      = (replayLines 0 entries).map String.toList ++
        ["".toList, "Final balance:".toList, (formatMoney total false).toList] := by
    rw [splitOn_lines (by simp) hlines, List.cons_append, List.map_cons, List.tail_cons,
      List.map_append]
    rfl
  unfold readReplay
  rw [htail]
  -- The last three lines are no steps, and the last of them is the balance.
  have htake : ((replayLines 0 entries).map String.toList ++
      ["".toList, "Final balance:".toList, (formatMoney total false).toList]).take
        (((replayLines 0 entries).map String.toList ++
          ["".toList, "Final balance:".toList, (formatMoney total false).toList]).length - 3)
      = (replayLines 0 entries).map String.toList := by
    rw [List.length_append, List.length_cons, List.length_cons, List.length_singleton,
      Nat.add_sub_cancel]
    exact List.take_left' rfl
  simp only [htake, mapM_replayLines, List.getLast?_append, List.getLast?_cons_cons,
    List.getLast?_singleton, Option.some_or, Option.getD_some, String.ofList_toList,
    parseMoney_formatMoney]

theorem balanceLine_ne {label : String} {cents : Int} (h : ∀ c ∈ label.toList, c ≠ '\n') :
    ∀ c ∈ (label ++ rjust 10 (formatMoney cents false)).toList, c ≠ '\n' := by
  have hmoney : ∀ c ∈ (formatMoney cents false).toList, c ≠ '\n' :=
    formatMoney_ne (by decide) (by decide)
  intro c hc
  unfold rjust at hc
  simp only [String.toList_append, String.toList_ofList, List.leftpad, List.mem_append] at hc
  rcases hc with hc | hc | hc
  · exact h c hc
  · rw [List.eq_of_mem_replicate hc]
    decide
  · exact hmoney c hc

/-- A figure is read behind the colon of its line, whatever the label. -/
theorem readFigure_line (label : String) (name : List Char) (blanks : Nat)
    (hlabel : label.toList = name ++ ':' :: List.replicate blanks ' ')
    (hname : ∀ c ∈ name, c ≠ ':') (cents : Int) :
    readFigure (label ++ rjust 10 (formatMoney cents false)).toList = some cents := by
  have hmoney : Stops (· = ' ') (formatMoney cents false).toList :=
    stops_of_ne (formatMoney_ne (by decide) (by decide))
  have hplain : ∀ c ∈ name, decide (c ≠ ':') = true := fun c hc => decide_eq_true (hname c hc)
  have hcolon : ∀ text : List Char, Stops (· ≠ ':') (':' :: text) :=
    fun text => stops_cons (by decide) text
  unfold readFigure rjust
  rw [String.toList_append, hlabel, String.toList_ofList, List.leftpad, List.append_assoc,
    List.cons_append, dropWhile_field hplain (hcolon _), List.drop_succ_cons, List.drop_zero,
    ← List.append_assoc, List.replicate_append_replicate, dropWhile_padding hmoney,
    String.ofList_toList, parseMoney_formatMoney]

theorem readBalance_describeBalance (projection : BalanceProjection) :
    readBalance (describeBalance projection) = some projection := by
  have hcurrent := readFigure_line "Ledger Balance:     " "Ledger Balance".toList 5
    (by simp [List.replicate]) (by simp) projection.currentBalance
  have hdebits := readFigure_line "Pending Debits:     " "Pending Debits".toList 5
    (by simp [List.replicate]) (by simp) projection.pendingDebits
  have hcredits := readFigure_line "Pending Credits:    " "Pending Credits".toList 4
    (by simp [List.replicate]) (by simp) projection.pendingCredits
  have havailable := readFigure_line "Available Balance:  " "Available Balance".toList 2
    (by simp [List.replicate]) (by simp) projection.availableBalance
  unfold readBalance describeBalance
  rw [splitOn_lines (List.cons_ne_nil _ _)]
  · simp only [List.map_cons, List.map_nil, hcurrent, hdebits, hcredits, havailable]
  · intro line hline
    simp only [List.mem_cons, List.not_mem_nil, or_false] at hline
    rcases hline with rfl | rfl | rfl | rfl <;> exact balanceLine_ne (by simp)

/-! ### What the texts have in common -/

/-- The balance after each step is the replay of the entries so far. -/
theorem replaySteps_getElem? (entries : List LedgerEntry) (balance : Int) (i : Nat) :
    (replaySteps balance entries)[i]? = entries[i]?.map fun entry =>
      (timelineRow entry, balance + totalCents (entries.take (i + 1))) := by
  induction entries generalizing balance i with
  | nil => rfl
  | cons entry entries ih =>
      cases i with
      | zero =>
          simp only [replaySteps, List.getElem?_cons_zero, Option.map_some, List.take_succ_cons,
            List.take_zero, totalCents, List.map_cons, List.map_nil, List.sum_cons, List.sum_nil,
            Int.add_zero]
      | succ i =>
          rw [replaySteps, List.getElem?_cons_succ, ih, List.getElem?_cons_succ]
          simp only [List.take_succ_cons, totalCents, List.map_cons, List.sum_cons, Int.add_assoc]

/-- The first entries of a well formed ledger can be replayed. -/
theorem replay_take {ledger : Ledger} (h : ledger.WellFormed) (count : Nat) :
    replay (ledger.entries.take count) = .ok (totalCents (ledger.entries.take count)) := by
  rw [replay, replayFrom_eq_sum, Int.zero_add]
  intro i hi
  rw [List.getElem_take, h.sequence_eq i]
  ring

theorem map_fst_replaySteps (entries : List LedgerEntry) (balance : Int) :
    (replaySteps balance entries).map Prod.fst = entries.map timelineRow := by
  induction entries generalizing balance with
  | nil => rfl
  | cons entry entries ih => rw [replaySteps, List.map_cons, List.map_cons, ih]

/-- The lines of both texts are made of what a row says. -/
theorem lines_of_row {entry other : LedgerEntry} (h : timelineRow entry = timelineRow other) :
    timelineLine entry = timelineLine other ∧ entry.signedCents = other.signedCents ∧
      ∀ balance, replayLine entry balance = replayLine other balance := by
  unfold timelineRow at h
  simp only [Prod.mk.injEq] at h
  rcases h with ⟨hnumber, hkind, hcents⟩
  have hsequence : entry.sequence = other.sequence := by
    have hpos := entry.sequence_pos
    have hpos' := other.sequence_pos
    omega
  refine ⟨?_, hcents, fun balance => ?_⟩
  · unfold timelineLine
    rw [hsequence, hkind, hcents]
  · unfold replayLine
    rw [hsequence, hkind, hcents]

theorem texts_of_rows {entries others : List LedgerEntry}
    (h : entries.map timelineRow = others.map timelineRow) :
    entries.map timelineLine = others.map timelineLine ∧
      totalCents entries = totalCents others ∧
      ∀ balance, replayLines balance entries = replayLines balance others := by
  induction entries generalizing others with
  | nil =>
      cases others with
      | nil => exact ⟨rfl, rfl, fun _ => rfl⟩
      | cons other others => cases h
  | cons entry entries ih =>
      cases others with
      | nil => cases h
      | cons other others =>
          rw [List.map_cons, List.map_cons, List.cons.injEq] at h
          rcases lines_of_row h.1 with ⟨hline, hcents, hstep⟩
          rcases ih h.2 with ⟨hlines, htotal, hsteps⟩
          refine ⟨?_, ?_, fun balance => ?_⟩
          · rw [List.map_cons, List.map_cons, hline, hlines]
          · simp only [totalCents, List.map_cons, List.sum_cons, hcents] at htotal ⊢
            rw [htotal]
          · rw [replayLines, replayLines, hcents, hstep, hsteps]

/-- The two texts of a ledger are read back, the steps of the replay with the
    balances the ledger had after them, and either text determines the other. A
    projection is read back from its text. -/
theorem ledgerText_faithful (ledger other : Ledger) (hledger : ledger.Reachable)
    (hother : other.Reachable) :
    readTimeline (describeLedger ledger) = some (ledger.entries.map timelineRow) ∧
      (∃ text total, describeReplay ledger = .ok text ∧ replay ledger.entries = .ok total ∧
        readReplay text = some (replaySteps 0 ledger.entries, total)) ∧
      (∀ i row balance, (replaySteps 0 ledger.entries)[i]? = some (row, balance) →
        ledger.entries[i]?.map timelineRow = some row ∧
          replay (ledger.entries.take (i + 1)) = .ok balance) ∧
      (describeLedger ledger = describeLedger other ↔
        describeReplay ledger = describeReplay other) ∧
      ∀ projection, readBalance (describeBalance projection) = some projection := by
  have hwf := Ledger.reachable_wellFormed hledger
  have hwf' := Ledger.reachable_wellFormed hother
  refine ⟨readTimeline_describeLedger ledger,
    ⟨_, _, describeReplay_ok hwf, replay_eq_sum hwf, readReplay_lines _ _⟩, ?_, ?_,
    readBalance_describeBalance⟩
  · -- A step of the replay is an entry with the balance of those up to it.
    intro i row balance hstep
    rw [replaySteps_getElem?] at hstep
    rcases Option.map_eq_some_iff.mp hstep with ⟨entry, hentry, hvalue⟩
    rw [Prod.mk.injEq] at hvalue
    rw [Int.zero_add] at hvalue
    rw [hentry, Option.map_some, hvalue.1, replay_take hwf, hvalue.2]
    exact ⟨rfl, rfl⟩
  · -- Both texts determine the rows of the ledger, and are determined by them.
    constructor
    · intro h
      have hread := congrArg readTimeline h
      rw [readTimeline_describeLedger, readTimeline_describeLedger, Option.some.injEq] at hread
      rcases texts_of_rows hread with ⟨-, htotal, hsteps⟩
      rw [describeReplay_ok hwf, describeReplay_ok hwf', htotal, hsteps]
    · intro h
      rw [describeReplay_ok hwf, describeReplay_ok hwf', Except.ok.injEq] at h
      have hread := congrArg readReplay h
      rw [readReplay_lines, readReplay_lines, Option.some.injEq, Prod.mk.injEq] at hread
      have hrows := congrArg (List.map Prod.fst) hread.1
      rw [map_fst_replaySteps, map_fst_replaySteps] at hrows
      unfold describeLedger
      rw [(texts_of_rows hrows).1]

/-- The teaching ledger, and the same without its last entry. -/
theorem ledgerText_faithful_chapter :
    let ledger := finalState LedgerCall.exec Ledger.new (chapterEntries.map .append)
    let other := finalState LedgerCall.exec Ledger.new ((chapterEntries.take 2).map .append)
    readTimeline (describeLedger ledger) = some (ledger.entries.map timelineRow) ∧
      (∃ text total, describeReplay ledger = .ok text ∧ replay ledger.entries = .ok total ∧
        readReplay text = some (replaySteps 0 ledger.entries, total)) ∧
      (∀ i row balance, (replaySteps 0 ledger.entries)[i]? = some (row, balance) →
        ledger.entries[i]?.map timelineRow = some row ∧
          replay (ledger.entries.take (i + 1)) = .ok balance) ∧
      (describeLedger ledger = describeLedger other ↔
        describeReplay ledger = describeReplay other) ∧
      ∀ projection, readBalance (describeBalance projection) = some projection :=
  ledgerText_faithful _ _ ⟨_, rfl⟩ ⟨_, rfl⟩

end BankSim

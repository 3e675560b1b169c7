import ChipEight.Proofs.Yaml.Scalar

/-!
# Cutting written documents into tokens

A written document is one word or stands within brackets from its first character to its last, so no
block is ever open and no key has to start anywhere. A scan of one piece of it leads from the place
before the piece to the place behind it; scans of adjacent pieces are one scan.
-/
namespace ChipEight.Yaml

namespace Plain

open Document (isWordCharacter)

/-- Whether a word ends before the rest of a text: there is none, or within brackets a bracket or a
comma. -/
def Ends (bracketed : Bool) (rest : List Char) : Prop :=
  rest = [] ∨ (bracketed ∧ ∃ c behind, rest = c :: behind ∧ isBracket c)

/-- Characters that no word holds: blanks, ends of lines and marks. -/
def marks : List Char :=
  [' ', '\t', '\n', '\u2028', '\u2029', ':', '[', ']', '\x7b', '\x7d', ',', '#', byteOrderMark, '%',
    '?', '*', '&', '!', '|', '>', '\'', '\x22', '@', '\x60']

theorem notMem_marks {c : Char} (h : isWordCharacter c) : c ∉ marks := by
  have hmarks : ¬ marks.any isWordCharacter := by decide
  exact fun hmem => hmarks (List.any_eq_true.mpr ⟨c, hmem, h⟩)

theorem goesOn_of_notMem_marks {c : Char} (h : c ∉ marks) :
    ¬ isBlank c ∧ ¬ isBreak c ∧ ¬ isBracket c := by
  simp only [marks, List.mem_cons, List.not_mem_nil, or_false, not_or] at h
  simp [isBlank, isBreak, isBracket, h]

theorem scan?_append {cs : List Char} (hcs : ∀ c ∈ cs, isWordCharacter c) {bracketed : Bool}
    {rest : List Char} (hrest : Ends bracketed rest) (indent : Nat) (read : List Char) (p : Place) :
    scan? bracketed indent .closed read p (cs ++ rest) =
      some ⟨String.ofList (read.reverse ++ cs), false, ⟨cs.foldl Place.next p, rest⟩⟩ := by
  induction cs generalizing read p with
  | nil =>
    obtain rfl | ⟨hbracketed, c, behind, rfl, hc⟩ := hrest
    · simp [scan?, Gap.hasLines]
    · have hplain : ¬ isBlank c ∧ ¬ isBreak c ∧ c ≠ ':' := by
        simp only [isBracket, decide_eq_true_eq] at hc
        obtain rfl | rfl | rfl | rfl | rfl := hc <;> decide
      simp [scan?, hplain, endsAfter, isAmbiguous, endsBefore, hbracketed, hc, Gap.isOpen,
        Gap.hasLines]
  | cons c cs ih =>
    obtain ⟨hc, htail⟩ := List.forall_mem_cons.mp hcs
    have hplain := notMem_marks hc
    have hgoes := goesOn_of_notMem_marks hplain
    simp only [marks, List.mem_cons, List.not_mem_nil, or_false, not_or] at hplain
    simp [scan?, hplain, hgoes, endsAfter, isAmbiguous, endsBefore, Gap.isOpen, Gap.folded,
      ih htail]

end Plain

namespace Scanner

/-- A scanner that has read some tokens of a text without blocks: how many brackets are open, and
whether a key may start next. -/
structure Flow (s : Scanner) (tokens : List Token) (brackets : Nat) (allowed : Bool) : Prop where
  tokens : s.tokens = tokens.toArray
  blocks : s.blocks = []
  keyStart : ¬ s.keyStart.any (·.required)
  outerStarts : ∀ k ∈ s.outerStarts, ¬ k.any (·.required)
  brackets : s.outerStarts.length = brackets
  keyAllowed : s.keyAllowed = allowed

theorem insertIdx_length_append {α : Type} (l l' : List α) (a : α) :
    (l ++ l').insertIdx l.length a = l ++ a :: l' := by
  induction l with
  | nil => rfl
  | cons b l ih => exact congrArg (b :: ·) ih

section

variable {s : Scanner} {tokens : List Token} {brackets : Nat} {allowed : Bool}

theorem flow_start : Scanner.start.Flow [] 0 true :=
  ⟨rfl, rfl, by decide, by simp [start], rfl, rfl⟩

namespace Flow

theorem bracketed (h : s.Flow tokens brackets allowed) : s.bracketed = decide (brackets ≠ 0) := by
  rw [Scanner.bracketed, ← h.brackets]
  simp [List.length_eq_zero_iff]

theorem closeBlocks (h : s.Flow tokens brackets allowed) (closes : Nat → Bool) :
    s.closeBlocks closes = s := by
  obtain ⟨tokens, blocks, keyStart, outerStarts, keyAllowed⟩ := s
  obtain rfl : blocks = [] := h.blocks
  unfold Scanner.closeBlocks
  split <;> rfl

/-- Keys that have become too long are given up, which is never refused. -/
theorem dropStale? (h : s.Flow tokens brackets allowed) (c : Cursor) :
    ∃ s', s.dropStale? c = some s' ∧ s'.Flow tokens brackets allowed ∧
      ∀ k, s.keyStart = some k → ¬ k.isStale c → s'.keyStart = some k := by
  have hneeded : ∀ k : Option KeyStart, ¬ k.any (·.required) →
      ¬ k.any (fun k => decide (k.required ∧ k.isStale c)) := by
    rintro (_ | k) <;> simp_all
  have hkept : ∀ k : Option KeyStart, ¬ k.any (·.required) →
      ¬ (if k.any (·.isStale c) then none else k).any (·.required) := by
    intro k hk
    split
    · simp
    · exact hk
  refine ⟨_, if_neg ?_, ⟨h.tokens, h.blocks, hkept _ h.keyStart, ?_, ?_, h.keyAllowed⟩, ?_⟩
  · rw [not_or]
    refine ⟨hneeded _ h.keyStart, ?_⟩
    simp only [List.any_eq_true, not_exists, not_and]
    exact fun k hk => hneeded k (h.outerStarts k hk)
  · intro k hk
    obtain ⟨k, hmem, rfl⟩ := List.mem_map.mp hk
    exact hkept k (h.outerStarts k hmem)
  · simp [h.brackets]
  · intro k hk hfresh
    simp [hk, hfresh]

theorem dropKey? (h : s.Flow tokens brackets allowed) :
    s.dropKey? = some { s with keyStart := none } := if_neg h.keyStart

theorem withoutKey (h : s.Flow tokens brackets allowed) :
    { s with keyStart := none }.Flow tokens brackets allowed :=
  ⟨h.tokens, h.blocks, by simp, h.outerStarts, h.brackets, h.keyAllowed⟩

theorem saveKey? (h : s.Flow tokens brackets allowed) (c : Cursor) :
    ∃ s', s.saveKey? c = some s' ∧ s'.Flow tokens brackets allowed ∧
      (allowed → s'.keyStart = some ⟨c.toPlace, tokens.length, false⟩) := by
  unfold Scanner.saveKey?
  cases hallowed : allowed with
  | false =>
    rw [h.keyAllowed, hallowed]
    exact ⟨s, rfl, hallowed ▸ h, nofun⟩
  | true =>
    rw [h.keyAllowed, hallowed, if_pos rfl, h.dropKey?]
    refine ⟨_, rfl, ⟨h.tokens, h.blocks, by simp [h.blocks], h.outerStarts, h.brackets, ?_⟩, ?_⟩
    · exact h.keyAllowed.trans hallowed
    · simp [h.tokens, h.blocks]

theorem push (h : s.Flow tokens brackets allowed) (a : Bool) (t : Token) :
    ((s.allowKey a).push t).Flow (tokens ++ [t]) brackets a :=
  ⟨by simp [Scanner.push, allowKey, h.tokens], h.blocks, h.keyStart, h.outerStarts, h.brackets, rfl⟩

theorem openBracket? (h : s.Flow tokens brackets allowed) (c : Cursor) (t : Token) :
    ∃ s', s.openBracket? c t = some (s', c.skip 1) ∧
      s'.Flow (tokens ++ [t]) (brackets + 1) true := by
  obtain ⟨s', hsave, h', -⟩ := h.saveKey? c
  rw [Scanner.openBracket?, hsave]
  exact ⟨_, rfl, by simp [Scanner.push, allowKey, h'.tokens], h'.blocks, nofun,
    List.forall_mem_cons.mpr ⟨h'.keyStart, h'.outerStarts⟩, congrArg (· + 1) h'.brackets, rfl⟩

theorem closeBracket? (h : s.Flow tokens (brackets + 1) allowed) (c : Cursor) (t : Token) :
    ∃ s', s.closeBracket? c t = some (s', c.skip 1) ∧ s'.Flow (tokens ++ [t]) brackets false := by
  obtain ⟨k, outer, houter⟩ : ∃ k outer, s.outerStarts = k :: outer :=
    List.exists_cons_of_length_eq_add_one h.brackets
  have hstarts := houter ▸ h.outerStarts
  have hlength := houter ▸ h.brackets
  rw [Scanner.closeBracket?, h.dropKey?]
  exact ⟨_, rfl, by simp [Scanner.push, allowKey, h.tokens], h.blocks,
    by simpa [Scanner.push, allowKey, houter] using hstarts k List.mem_cons_self,
    fun k hk => h.outerStarts k (List.mem_of_mem_tail hk),
    by simpa [Scanner.push, allowKey, houter] using hlength, rfl⟩

theorem comma? (h : s.Flow tokens brackets allowed) (c : Cursor) :
    ∃ s', s.comma? c = some (s', c.skip 1) ∧ s'.Flow (tokens ++ [.comma]) brackets true := by
  rw [Scanner.comma?, h.dropKey?]
  exact ⟨_, rfl, h.withoutKey.push true .comma⟩

/-- The mark of a value marks the key in front of it. -/
theorem valueMark? {t : Token} (h : s.Flow (tokens ++ [t]) (brackets + 1) allowed) {p : Place}
    (hkey : s.keyStart = some ⟨p, tokens.length, false⟩) (c : Cursor) :
    ∃ s', s.valueMark? c = some (s', c.skip 1) ∧
      s'.Flow (tokens ++ [.key, t, .value]) (brackets + 1) false := by
  have hinsert : s.tokens.insertIdxIfInBounds tokens.length .key =
      (tokens ++ [.key, t]).toArray := by
    rw [h.tokens, List.insertIdxIfInBounds_toArray, insertIdx_length_append]
  have hbracketed : s.bracketed := by simp [h.bracketed]
  unfold Scanner.valueMark?
  rw [hkey]
  dsimp only
  rw [hinsert, openBlock, if_pos (.inl hbracketed)]
  exact ⟨_, rfl, by simp [Scanner.push, allowKey], h.blocks, nofun, h.outerStarts, h.brackets, rfl⟩

end Flow

/-- At the end of the text the tokens so far are its tokens. -/
theorem Flow.run?_nil (h : s.Flow tokens brackets allowed) (fuel : Nat) (p : Place) :
    run? (fuel + 1) s ⟨p, []⟩ = some tokens := by
  obtain ⟨s', hdrop, h', -⟩ := h.dropStale? ⟨p, []⟩
  rw [run?, skipSpace]
  simp only [hdrop, Option.bind_eq_bind, Option.bind_some, closeAll?, h'.closeBlocks, h'.dropKey?]
  simp [allowKey, h'.tokens]

/-- Whether a scan leads from one state to another, in no more steps than characters were read. -/
def Leads (s : Scanner) (c : Cursor) (s' : Scanner) (c' : Cursor) : Prop :=
  ∃ steps, steps + c'.rest.length ≤ c.rest.length ∧
    ∀ fuel, run? (fuel + steps) s c = run? fuel s' c'

theorem Leads.trans {s s' s'' : Scanner} {c c' c'' : Cursor} (h : s.Leads c s' c')
    (h' : s'.Leads c' s'' c'') : s.Leads c s'' c'' := by
  obtain ⟨n, hn, hrun⟩ := h
  obtain ⟨m, hm, hrun'⟩ := h'
  refine ⟨m + n, by omega, fun fuel => ?_⟩
  rw [← Nat.add_assoc, hrun, hrun']

/-- A character that is neither a blank nor the start of a comment. -/
def isToken (c : Char) : Bool :=
  ¬ (isBreak c ∨ c = ' ' ∨ c = '\t' ∨ c = '#' ∨ c = byteOrderMark)

theorem skipSpace_of_isToken {head : Char} (h : isToken head) (p : Place) (tail : List Char) :
    s.skipSpace false p (head :: tail) = (s, ⟨p, head :: tail⟩) := by
  simp only [isToken, decide_eq_true_eq, not_or] at h
  simp [skipSpace, h]

theorem isDocumentMark_cons {head : Char} (tail : List Char) (h : head ≠ '-' ∧ head ≠ '.') :
    ¬ isDocumentMark (head :: tail) := by
  unfold isDocumentMark
  split
  · rename_i heq
    obtain ⟨rfl, rfl⟩ := List.cons.inj heq
    simp [h]
  · simp

theorem isDocumentMark_cons_cons {a b : Char} (tail : List Char) (h : b ≠ a) :
    ¬ isDocumentMark (a :: b :: tail) := by
  unfold isDocumentMark
  split
  · rename_i heq
    obtain ⟨rfl, hrest⟩ := List.cons.inj heq
    obtain ⟨rfl, rfl⟩ := List.cons.inj hrest
    simp [h]
  · simp

/-- One token more is a step, if it takes a character. -/
theorem leads_of_token? {head : Char} {tail : List Char} {p : Place}
    (hhead : isToken head) {s₁ s₂ : Scanner} {c : Cursor}
    (hdrop : s.dropStale? ⟨p, head :: tail⟩ = some s₁) (hflow : s₁.Flow tokens brackets allowed)
    (htoken : s₁.token? ⟨p, head :: tail⟩ head tail = some (s₂, c))
    (hlength : c.rest.length ≤ tail.length) : s.Leads ⟨p, head :: tail⟩ s₂ c := by
  refine ⟨1, by simp; omega, fun fuel => ?_⟩
  rw [run?, skipSpace_of_isToken hhead]
  simp [hdrop, hflow.closeBlocks, htoken]

end

/-- Whether every scan of a piece of text in front of a rest reads some tokens. The pairs are the
number of open brackets and whether a key may start, before the piece and behind it. -/
def Scans (cs rest : List Char) (tokens : List Token) (before behind : Nat × Bool) : Prop :=
  ∀ (s : Scanner) (p : Place) (read : List Token), s.Flow read before.1 before.2 →
    ∃ s', s.Leads ⟨p, cs ++ rest⟩ s' ⟨cs.foldl Place.next p, rest⟩ ∧
      s'.Flow (read ++ tokens) behind.1 behind.2

namespace Scans

theorem append {cs cs' rest : List Char} {tokens tokens' : List Token} {σ σ' σ'' : Nat × Bool}
    (h : Scans cs (cs' ++ rest) tokens σ σ') (h' : Scans cs' rest tokens' σ' σ'') :
    Scans (cs ++ cs') rest (tokens ++ tokens') σ σ'' := by
  intro s p read hflow
  obtain ⟨s', hleads, hflow'⟩ := h s p read hflow
  obtain ⟨s'', hleads', hflow''⟩ := h' s' _ _ hflow'
  rw [List.append_assoc] at hflow''
  rw [List.append_assoc, List.foldl_append]
  exact ⟨s'', hleads.trans hleads', hflow''⟩

theorem nil (rest : List Char) (σ : Nat × Bool) : Scans [] rest [] σ σ := fun s p read h =>
  ⟨s, ⟨0, by simp, fun _ => rfl⟩, by simpa using h⟩

/-- A piece of text that is one token. -/
theorem of_token? {head : Char} {tail rest : List Char} {t : Token} {brackets behind : Nat}
    {allowed next : Bool} (hhead : isToken head)
    (h : ∀ (s : Scanner) (p : Place) (read : List Token), s.Flow read brackets allowed →
      ∃ s', s.token? ⟨p, head :: tail ++ rest⟩ head (tail ++ rest) =
          some (s', ⟨(head :: tail).foldl Place.next p, rest⟩) ∧
        s'.Flow (read ++ [t]) behind next) :
    Scans (head :: tail) rest [t] (brackets, allowed) (behind, next) := by
  intro s p read hflow
  obtain ⟨s₁, hdrop, hflow₁, -⟩ := hflow.dropStale? ⟨p, head :: tail ++ rest⟩
  obtain ⟨s₂, htoken, hflow₂⟩ := h s₁ p read hflow₁
  exact ⟨s₂, leads_of_token? hhead hdrop hflow₁ htoken (by simp), hflow₂⟩

theorem openBracket {head : Char} {t : Token}
    (h : (head = '[' ∧ t = .listStart) ∨ (head = '\x7b' ∧ t = .recordStart)) (rest : List Char)
    (brackets : Nat) (allowed : Bool) :
    Scans [head] rest [t] (brackets, allowed) (brackets + 1, true) := by
  have hhead : isToken head := by obtain ⟨rfl, -⟩ | ⟨rfl, -⟩ := h <;> decide
  refine of_token? hhead fun s p read hflow => ?_
  have htoken : s.token? ⟨p, head :: rest⟩ head rest = s.openBracket? ⟨p, head :: rest⟩ t := by
    obtain ⟨rfl, rfl⟩ | ⟨rfl, rfl⟩ := h <;> simp [token?, isDocumentMark_cons]
  exact htoken ▸ hflow.openBracket? ⟨p, head :: rest⟩ t

theorem closeBracket {head : Char} {t : Token}
    (h : (head = ']' ∧ t = .listEnd) ∨ (head = '\x7d' ∧ t = .recordEnd)) (rest : List Char)
    (brackets : Nat) (allowed : Bool) :
    Scans [head] rest [t] (brackets + 1, allowed) (brackets, false) := by
  have hhead : isToken head := by obtain ⟨rfl, -⟩ | ⟨rfl, -⟩ := h <;> decide
  refine of_token? hhead fun s p read hflow => ?_
  have htoken : s.token? ⟨p, head :: rest⟩ head rest = s.closeBracket? ⟨p, head :: rest⟩ t := by
    obtain ⟨rfl, rfl⟩ | ⟨rfl, rfl⟩ := h <;> simp [token?, isDocumentMark_cons]
  exact htoken ▸ hflow.closeBracket? ⟨p, head :: rest⟩ t

theorem comma (rest : List Char) (brackets : Nat) (allowed : Bool) :
    Scans [','] rest [.comma] (brackets, allowed) (brackets, true) := by
  refine of_token? (by decide) fun s p read hflow => ?_
  have htoken : s.token? ⟨p, ',' :: rest⟩ ',' rest = s.comma? ⟨p, ',' :: rest⟩ := by
    simp [token?, isDocumentMark_cons]
  exact htoken ▸ hflow.comma? ⟨p, ',' :: rest⟩

/-- A quoted text, with the key that may have started there. -/
theorem token?_text {s : String} (hs : Document.isLine s) {tail : List Char}
    (htail : (Document.writeText s).toList = '\x22' :: tail) (rest : List Char)
    {scanner : Scanner} {read : List Token} {brackets : Nat} {allowed : Bool}
    (hflow : scanner.Flow read brackets allowed) (p : Place) :
    ∃ s', scanner.token? ⟨p, '\x22' :: (tail ++ rest)⟩ '\x22' (tail ++ rest) =
        some (s', ⟨('\x22' :: tail).foldl Place.next p, rest⟩) ∧
      s'.Flow (read ++ [.scalar .quoted s]) brackets false ∧
      (allowed → s'.keyStart = some ⟨p, read.length, false⟩) := by
  obtain ⟨inside, hinside, hread⟩ := Quoted.double?_writeText hs p rest
  obtain rfl : tail = inside := (List.cons.inj (htail.symm.trans hinside)).2
  obtain ⟨s', hsave, hflow', hkey⟩ := hflow.saveKey? ⟨p, '\x22' :: (tail ++ rest)⟩
  have htoken : scanner.token? ⟨p, '\x22' :: (tail ++ rest)⟩ '\x22' (tail ++ rest) =
      scanner.quotedScalar? ⟨p, '\x22' :: (tail ++ rest)⟩ true := by
    simp [token?, isDocumentMark_cons]
  refine ⟨_, htoken.trans ?_, hflow'.push false _, hkey⟩
  rw [quotedScalar?, hsave, ← htail]
  show (Quoted.double? .closed [] (p.next '\x22') (tail ++ rest)).bind _ = _
  rw [hread]
  rfl

theorem text {s : String} (hs : Document.isLine s) (rest : List Char) (brackets : Nat)
    (allowed : Bool) :
    Scans (Document.writeText s).toList rest [.scalar .quoted s] (brackets, allowed)
      (brackets, false) := by
  obtain ⟨tail, htail, -⟩ := Quoted.double?_writeText hs .start []
  rw [htail]
  refine of_token? (by decide) fun scanner p read hflow => ?_
  obtain ⟨s', htoken, hflow', -⟩ := token?_text hs htail rest hflow p
  exact ⟨s', htoken, hflow'⟩

theorem token?_word {head : Char} {tail : List Char} (hw : Document.LooksPlain (head :: tail))
    (s : Scanner) (p : Place) (rest : List Char) :
    isToken head ∧ s.token? ⟨p, head :: (tail ++ rest)⟩ head (tail ++ rest) =
      s.plainScalar? ⟨p, head :: (tail ++ rest)⟩ := by
  obtain ⟨c, behind, hcs, hc⟩ := hw.first
  have hmarks : c ∉ Plain.marks := Plain.notMem_marks (by simp [Document.isWordCharacter, hc])
  have hgoes := Plain.goesOn_of_notMem_marks hmarks
  have hne : c ≠ '-' ∧ c ≠ '.' := by
    refine ⟨?_, ?_⟩ <;> rintro rfl <;> exact absurd hc (by decide)
  simp only [Plain.marks, List.mem_cons, List.not_mem_nil, or_false, not_or] at hmarks
  obtain hcs | hcs := hcs
  · obtain ⟨rfl, rfl⟩ := List.cons.inj hcs
    refine ⟨by simp [isToken, hgoes, hmarks], ?_⟩
    have hmark := isDocumentMark_cons (tail ++ rest) hne
    have hstarts : Plain.startsWith s.bracketed head (tail ++ rest) := by
      simp [Plain.startsWith, hne, hmarks, endsWord, hgoes]
    simp [token?, hmark, hmarks, hne, hstarts]
  · obtain ⟨rfl, rfl⟩ := List.cons.inj hcs
    refine ⟨by decide, ?_⟩
    have hmark := isDocumentMark_cons_cons (a := '-') (behind ++ rest) hne.1
    have hstarts : Plain.startsWith s.bracketed '-' (c :: (behind ++ rest)) := by
      simp [Plain.startsWith, hgoes]
    simp [token?, hmark, hstarts, endsWord, hgoes]

theorem word {w : String} (hw : Document.LooksPlain w.toList) {brackets : Nat} {rest : List Char}
    (hrest : Plain.Ends (brackets ≠ 0) rest) (allowed : Bool) :
    Scans w.toList rest [.scalar .plain w] (brackets, allowed) (brackets, false) := by
  obtain ⟨head, tail, hcs⟩ : ∃ head tail, w.toList = head :: tail := by
    obtain ⟨c, behind, hcs | hcs, -⟩ := hw.first
    · exact ⟨_, _, hcs⟩
    · exact ⟨_, _, hcs⟩
  rw [hcs] at hw ⊢
  refine of_token? (token?_word hw .start .start []).1 fun s p read hflow => ?_
  obtain ⟨s', hsave, hflow', -⟩ := hflow.saveKey? ⟨p, head :: (tail ++ rest)⟩
  refine ⟨_, (token?_word hw s p rest).2.trans ?_, hflow'.push false _⟩
  rw [plainScalar?, hsave]
  show (Plain.scan? s'.bracketed s'.inner .closed [] p ((head :: tail) ++ rest)).bind _ = _
  rw [hflow'.bracketed, Plain.scan?_append hw.characters hrest, ← hcs]
  simp

theorem line_foldl_next (p : Place) (cs : List Char) : (cs.foldl Place.next p).line = p.line := by
  induction cs generalizing p with
  | nil => rfl
  | cons c cs ih => exact ih (p.next c)

theorem offset_foldl_next (p : Place) (cs : List Char) :
    (cs.foldl Place.next p).offset = p.offset + (String.ofList cs).utf8ByteSize := by
  induction cs generalizing p with
  | nil => simp
  | cons c cs ih =>
    rw [List.foldl_cons, ih, String.ofList_cons]
    simp [Place.next]
    omega

/-- A name of a record. The key starts at its first quote and is short enough for its mark. -/
theorem name {s : String} (hs : Document.isName s) (rest : List Char) (brackets : Nat) :
    Scans ((Document.writeText s).toList ++ [':']) rest [.key, .scalar .quoted s, .value]
      (brackets + 1, true) (brackets + 1, false) := by
  obtain ⟨hline, hsize⟩ := of_decide_eq_true hs
  obtain ⟨tail, htail, -⟩ := Quoted.double?_writeText hline .start []
  intro scanner p read hflow
  obtain ⟨s₁, hdrop, hflow₁, -⟩ := hflow.dropStale? ⟨p, '\x22' :: (tail ++ ':' :: rest)⟩
  obtain ⟨s₂, htoken, hflow₂, hkey⟩ := token?_text hline htail (':' :: rest) hflow₁ p
  have hleads := leads_of_token? (by decide) hdrop hflow₁ htoken (by simp)
  have hfresh : ¬ KeyStart.isStale ⟨p, read.length, false⟩
      ⟨('\x22' :: tail).foldl Place.next p, ':' :: rest⟩ := by
    simp only [KeyStart.isStale, decide_eq_true_eq, not_or, not_lt]
    rw [line_foldl_next, offset_foldl_next, ← htail, String.ofList_toList]
    exact ⟨Nat.le_refl _, Nat.add_le_add_left hsize _⟩
  obtain ⟨s₃, hdrop', hflow₃, hkept⟩ := hflow₂.dropStale?
    ⟨('\x22' :: tail).foldl Place.next p, ':' :: rest⟩
  obtain ⟨s₄, hmark, hflow₄⟩ := hflow₃.valueMark? (hkept _ (hkey rfl) hfresh)
    ⟨('\x22' :: tail).foldl Place.next p, ':' :: rest⟩
  have hbracketed : s₃.bracketed := by simp [hflow₃.bracketed]
  have htoken' : s₃.token? ⟨('\x22' :: tail).foldl Place.next p, ':' :: rest⟩ ':' rest =
      s₃.valueMark? ⟨('\x22' :: tail).foldl Place.next p, ':' :: rest⟩ := by
    simp [token?, isDocumentMark_cons, hbracketed]
  have hleads' := leads_of_token? (by decide) hdrop' hflow₃ (htoken'.trans hmark) (Nat.le_refl _)
  refine ⟨s₄, ?_, hflow₄⟩
  rw [htail, List.append_assoc, List.foldl_append]
  exact hleads.trans hleads'

end Scans

end Scanner

end ChipEight.Yaml

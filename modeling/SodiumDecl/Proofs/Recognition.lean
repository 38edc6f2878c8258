import SodiumDecl.Proofs.Grammar

/-!
# Only what the grammar spells is read

The converse of `Spells.read_eq`: a text that is read without a fault is a text of its tree, so the
reader takes exactly the texts of the grammar (`spells_iff_read`).

The scanner keeps the lexemes of what it has read, and what has begun since (`Scanner.Sound`). The
builder keeps where in a text it is: inside arrays and objects whose elements and members are
spelled (`Awaits`, `Inside`). Each is an invariant of one step, so of a run. A text with a fault
leaves a tree that is not whole, or more after it.
-/

namespace SodiumDecl.Json

/-! ## Numbers -/

theorem digits?_sound {cs ds rest : List Char} (h : digits? cs = some (ds, rest)) :
    IsDigits ds ∧ cs = ds ++ rest := by
  unfold digits? at h
  dsimp only at h
  split at h
  case isTrue => exact nomatch h
  case isFalse hne =>
    obtain ⟨rfl, rfl⟩ := Prod.mk.inj (Option.some.inj h)
    exact ⟨⟨by simpa using hne, fun c hc => List.mem_takeWhile_imp hc⟩,
      List.takeWhile_append_dropWhile.symm⟩

theorem whole?_sound {cs ds rest : List Char} (h : whole? cs = some (ds, rest)) :
    IsDigits ds ∧ (ds.head? = some '0' → ds = ['0']) ∧ cs = ds ++ rest := by
  unfold whole? at h
  split at h
  case h_1 => exact nomatch h
  case h_2 hzero =>
    obtain ⟨hd, hcs⟩ := digits?_sound h
    refine ⟨hd, fun hhead => ?_, hcs⟩
    obtain _ | ⟨d, _ | ⟨e, ds⟩⟩ := ds
    · exact absurd rfl hd.1
    · simpa using hhead
    · obtain rfl : d = '0' := by simpa using hhead
      exact absurd h (hzero _ _ _)

theorem fraction?_sound {cs fs rest : List Char} (h : fraction? cs = some (fs, rest)) :
    (∀ c ∈ fs, c.isDigit = true) ∧ cs = fractionText fs ++ rest := by
  unfold fraction? at h
  split at h
  case h_1 cs =>
    obtain ⟨hd, rfl⟩ := digits?_sound h
    obtain _ | ⟨d, ds⟩ := fs
    · exact absurd rfl hd.1
    · exact ⟨hd.2, rfl⟩
  case h_2 =>
    obtain ⟨rfl, rfl⟩ := Prod.mk.inj (Option.some.inj h)
    exact ⟨fun _ h => (nomatch h), rfl⟩

theorem exponent?_sound {cs rest : List Char} {o : Option (Bool × List Char)}
    (h : exponent? cs = some (o, rest)) : ∃ es, ExponentText o es ∧ cs = es ++ rest := by
  unfold exponent? at h
  split at h
  case h_1 =>
    obtain ⟨rfl, rfl⟩ := Prod.mk.inj (Option.some.inj h)
    exact ⟨[], .absent, rfl⟩
  case h_2 e cs =>
    split at h
    case isTrue he =>
      have he : e = 'e' ∨ e = 'E' := by simpa using he
      obtain ⟨⟨ds, rest'⟩, hdigits, heq⟩ := Option.map_eq_some_iff.mp h
      obtain ⟨rfl, rfl⟩ := Prod.mk.inj heq
      -- The sign of the exponent, or none.
      split at hdigits
      · obtain ⟨hd, rfl⟩ := digits?_sound hdigits
        exact ⟨_, .signed he true hd, by simp⟩
      · obtain ⟨hd, rfl⟩ := digits?_sound hdigits
        exact ⟨_, .signed he false hd, by simp⟩
      · obtain ⟨hd, rfl⟩ := digits?_sound hdigits
        exact ⟨_, .plain he hd, by simp⟩
    case isFalse =>
      obtain ⟨rfl, rfl⟩ := Prod.mk.inj (Option.some.inj h)
      exact ⟨[], .absent, rfl⟩

theorem literal?_sound {cs rest : List Char} {l : Literal} (h : literal? cs = some (l, rest)) :
    ∃ ls, l.Spelled ls ∧ cs = ls ++ rest := by
  have hunsigned (negative : Bool) (ds : List Char)
      (h : ((whole? ds).bind fun w => (fraction? w.2).bind fun f => (exponent? f.2).bind fun e =>
        some ((⟨negative, w.1, f.1, e.1⟩ : Literal), e.2)) = some (l, rest)) :
      ∃ ls, l.Spelled ls ∧ (if negative then ['-'] else []) ++ ds = ls ++ rest := by
    simp only [Option.bind_eq_some_iff, Option.some.injEq, Prod.mk.injEq, Prod.exists] at h
    obtain ⟨whole, cs, hwhole, fraction, cs', hfraction, o, cs'', ho, rfl, rfl⟩ := h
    obtain ⟨hw, hfront, rfl⟩ := whole?_sound hwhole
    obtain ⟨hf, rfl⟩ := fraction?_sound hfraction
    obtain ⟨es, he, rfl⟩ := exponent?_sound ho
    exact ⟨_, ⟨hw, hfront, hf, es, he, rfl⟩, by simp⟩
  unfold literal? at h
  dsimp only at h
  split at h
  · exact hunsigned true _ h
  · exact hunsigned false _ h

/-! ## The scanner -/

/-- The characters are lexemes with blanks around them. -/
inductive Lexed : List Char → List Token → Prop
  | nil {bs : List Char} (hb : Blanks bs) : Lexed bs []
  | snoc {cs ds bs : List Char} {ts : List Token} {u : Token} (h : Lexed cs ts)
    (hl : Lexeme ds u) (hb : Blanks bs) : Lexed (cs ++ (ds ++ bs)) (ts ++ [u])

theorem blanks_nil : Blanks [] := fun _ h => nomatch h

theorem Blanks.concat {bs : List Char} {c : Char} (hb : Blanks bs) (hc : IsBlank c) :
    Blanks (bs ++ [c]) :=
  List.forall_mem_append.mpr ⟨hb, List.forall_mem_singleton.mpr hc⟩

theorem Lexed.blank {cs : List Char} {ts : List Token} {c : Char} (h : Lexed cs ts)
    (hc : IsBlank c) : Lexed (cs ++ [c]) ts := by
  cases h with
  | nil hb => exact .nil (hb.concat hc)
  | snoc h hl hb =>
    rw [List.append_assoc, List.append_assoc]
    exact .snoc h hl (hb.concat hc)

theorem Lexed.lexeme {cs ds : List Char} {ts : List Token} {u : Token} (h : Lexed cs ts)
    (hl : Lexeme ds u) : Lexed (cs ++ ds) (ts ++ [u]) := by
  simpa using h.snoc hl blanks_nil

theorem StringBody.append {cs ds : List Char} {ns ms : List Nat} (h : StringBody cs ns)
    (hd : StringBody ds ms) : StringBody (cs ++ ds) (ns ++ ms) := by
  induction h with
  | nil => exact hd
  | plain hquote hslash hc _ ih => exact .plain hquote hslash hc ih
  | escape hc _ ih => exact .escape hc ih
  | unicode hlength hhex _ ih =>
    rw [List.append_assoc]
    exact .unicode hlength hhex ih

/-- What the characters of a lexeme that has begun may be in a mode. -/
def Mode.Began (ds : List Char) : Mode → Prop
  | .between => ds = []
  | .word rest t => Lexeme (ds ++ rest) t
  | .number read => ds = read.reverse
  | .string read => ∃ es, ds = '"' :: es ∧ StringBody es read.reverse
  | .escape read => ∃ es, ds = '"' :: es ++ ['\\'] ∧ StringBody es read.reverse
  | .hex read left value => ∃ es hs ns, ds = '"' :: es ++ '\\' :: 'u' :: hs ∧
      StringBody es read.reverse ∧ List.Forall₂ (fun c d => hexValue? c = some d) hs ns ∧
      value = ns.foldl (fun n d => 16 * n + d) 0 ∧ hs.length + left = 4 ∧ 0 < left
  | .stopped => False

/-- After lexemes stands what is no token. -/
def Stops (ts : List Token) : Prop := ∃ cs us ws, Lexed cs us ∧ ts = us ++ .bad :: ws

namespace Scanner

/-- The scanner after these characters: it has met what is no token, or it keeps the lexemes and
what has begun since. -/
def Sound (cs : List Char) (s : Scanner) : Prop :=
  Stops s.tokens.reverse ∨
    ∃ pre ds, cs = pre ++ ds ∧ Lexed pre s.tokens.reverse ∧ s.mode.Began ds

variable {s : Scanner} {cs ds : List Char} {c : Char}

theorem suffix_start (s : Scanner) (c : Char) : s.tokens <:+ (s.start c).tokens := by
  unfold start
  split <;> try simp [emit, turn]
  split <;> simp [stop]

theorem suffix_endNumber (s : Scanner) (read : List Char) :
    s.tokens <:+ (s.endNumber read).tokens := by
  unfold endNumber
  split
  · simp [emit]
  · exact List.suffix_append _ _

/-- No token is taken back. -/
theorem suffix_step (s : Scanner) (c : Char) : s.tokens <:+ (s.step c).tokens := by
  unfold step
  split
  · exact suffix_start s c
  · exact (List.suffix_cons _ _).trans (suffix_start (s.emit _) c)
  · split <;> simp [emit, stop]
  · split <;> simp [turn, stop]
  · split
    · simp [turn]
    · dsimp only
      split
      · exact (suffix_endNumber s _).trans (suffix_start _ c)
      · exact suffix_endNumber s _
  · split_ifs <;> simp [emit, turn, stop]
  · split_ifs
    · simp [turn]
    · split <;> simp [turn, stop]
  · split
    · simp [stop]
    · split_ifs <;> simp [turn]
  · exact List.suffix_rfl

theorem Stops.mono {ts us : List Token} (h : Stops ts.reverse) (hs : ts <:+ us) :
    Stops us.reverse := by
  obtain ⟨cs, vs, ws, hlexed, hts⟩ := h
  obtain ⟨rest, rfl⟩ := hs
  exact ⟨cs, vs, ws ++ rest.reverse, hlexed, by simp [hts]⟩

theorem sound_stop (h : Lexed cs s.tokens.reverse) : s.stop.Sound ds :=
  Or.inl ⟨cs, _, [], h, by simp [stop]⟩

theorem sound_emit {u : Token} (h : Lexed cs s.tokens.reverse) (hl : Lexeme ds u) :
    (s.emit u).Sound (cs ++ ds) :=
  Or.inr ⟨cs ++ ds, [], by simp, by simpa [emit] using h.lexeme hl, rfl⟩

theorem sound_turn {m : Mode} (h : Lexed cs s.tokens.reverse) (hm : m.Began ds) :
    (s.turn m).Sound (cs ++ ds) :=
  Or.inr ⟨cs, ds, rfl, h, hm⟩

theorem sound_start (hs : s.mode = .between) (h : s.Sound cs) : (s.start c).Sound (cs ++ [c]) := by
  rcases h with h | ⟨pre, ds, rfl, h, hds⟩
  · exact Or.inl (Stops.mono h (suffix_start s c))
  obtain rfl : ds = [] := by rwa [hs] at hds
  rw [List.append_nil]
  have hblank (hc : IsBlank c) : s.Sound (pre ++ [c]) :=
    Or.inr ⟨pre ++ [c], [], by simp, h.blank hc, by rw [hs]; rfl⟩
  unfold start
  split
  · exact hblank (Or.inl rfl)
  · exact hblank (Or.inr (Or.inl rfl))
  · exact hblank (Or.inr (Or.inr (Or.inl rfl)))
  · exact hblank (Or.inr (Or.inr (Or.inr rfl)))
  · exact sound_emit h .openBrace
  · exact sound_emit h .closeBrace
  · exact sound_emit h .openBracket
  · exact sound_emit h .closeBracket
  · exact sound_emit h .comma
  · exact sound_emit h .colon
  · exact sound_turn h ⟨[], rfl, .nil⟩
  · exact sound_turn h .null
  · exact sound_turn h .true
  · exact sound_turn h .false
  · split
    · exact sound_turn h rfl
    · exact sound_stop h

theorem Sound.endNumber (h : s.Sound cs) {read : List Char} (hs : s.mode = .number read) :
    (s.endNumber read).Sound cs := by
  rcases h with h | ⟨pre, ds, rfl, h, hds⟩
  · exact Or.inl (Stops.mono h (suffix_endNumber s read))
  obtain rfl : ds = read.reverse := by rwa [hs] at hds
  unfold Scanner.endNumber numberTokens
  cases hl : literal? read.reverse with
  | none => exact Or.inl ⟨pre, _, [], h, by simp [emit]⟩
  | some p =>
    obtain ⟨l, rest⟩ := p
    obtain ⟨ls, hspelled, hread⟩ := literal?_sound hl
    cases rest with
    | nil =>
      rw [hread, List.append_nil]
      exact sound_emit h (.number hspelled)
    | cons d ds => exact Or.inl ⟨pre ++ ls, _, [], h.lexeme (.number hspelled), by simp⟩

/-- Between lexemes, or where it has stopped, the scanner keeps nothing but lexemes. -/
theorem Sound.lexed (h : s.Sound cs) (hs : s.mode = .between ∨ s.mode = .stopped) :
    Stops s.tokens.reverse ∨ Lexed cs s.tokens.reverse := by
  rcases h with h | ⟨pre, ds, rfl, h, hds⟩
  · exact Or.inl h
  · rcases hs with hs | hs <;> rw [hs] at hds
    · obtain rfl : ds = [] := hds
      exact Or.inr (by simpa using h)
    · exact hds.elim

section Modes

variable {ts : List Token} (h : Lexed cs ts.reverse)

include h

theorem sound_step_word {rest : List Char} {t : Token} (hb : (Mode.word rest t).Began ds) :
    (Scanner.step ⟨.word rest t, ts⟩ c).Sound (cs ++ (ds ++ [c])) := by
  cases rest with
  | nil =>
    have hl : Lexeme ds t := by simpa [Mode.Began] using hb
    rw [← List.append_assoc]
    exact sound_start rfl (sound_emit h hl)
  | cons d rest =>
    have hl : Lexeme (ds ++ [d] ++ rest) t := by simpa [Mode.Began] using hb
    unfold Scanner.step
    cases rest <;> dsimp only <;> split
    case nil.isTrue hc =>
      rw [List.append_nil, ← hc] at hl
      exact sound_emit h hl
    case cons.isTrue hc => exact sound_turn h (by rwa [← hc] at hl)
    all_goals exact sound_stop h

theorem sound_step_number (read : List Char) :
    (Scanner.step ⟨.number read, ts⟩ c).Sound (cs ++ (read.reverse ++ [c])) := by
  unfold Scanner.step
  dsimp only
  split
  · exact sound_turn h (by simp [Mode.Began])
  · -- The number ends before this character.
    have hread : Sound (cs ++ read.reverse) ⟨.number read, ts⟩ := Or.inr ⟨cs, _, rfl, h, rfl⟩
    have hended := hread.endNumber rfl
    rw [← List.append_assoc]
    split
    · next hmode => exact sound_start hmode hended
    · next hmode =>
      have hstopped := (mode_endNumber ⟨.number read, ts⟩ read).resolve_left hmode
      rcases hended with h | ⟨_, _, -, -, h⟩
      · exact Or.inl h
      · rw [hstopped] at h
        exact h.elim

theorem sound_step_string {read : List Nat} (hb : (Mode.string read).Began ds) :
    (Scanner.step ⟨.string read, ts⟩ c).Sound (cs ++ (ds ++ [c])) := by
  obtain ⟨es, rfl, hes⟩ := hb
  unfold Scanner.step
  dsimp only
  split_ifs with hquote hslash hcontrol
  · rw [hquote]
    exact sound_emit h (.string hes)
  · rw [hslash]
    exact sound_turn h ⟨es, rfl, hes⟩
  · exact sound_stop h
  · have hc : StringBody [c] [c.toNat] := .plain hquote hslash (Nat.le_of_not_lt hcontrol) .nil
    exact sound_turn h ⟨es ++ [c], by simp, by simpa using hes.append hc⟩

theorem sound_step_escape {read : List Nat} (hb : (Mode.escape read).Began ds) :
    (Scanner.step ⟨.escape read, ts⟩ c).Sound (cs ++ (ds ++ [c])) := by
  obtain ⟨es, rfl, hes⟩ := hb
  unfold Scanner.step
  dsimp only
  split_ifs with hu
  · refine sound_turn h ⟨es, [], [], ?_, hes, .nil, rfl, rfl, by decide⟩
    simp [hu]
  · split
    · next n hn =>
      have hc : StringBody ['\\', c] [n] := .escape hn .nil
      exact sound_turn h ⟨es ++ ['\\', c], by simp, by simpa using hes.append hc⟩
    · exact sound_stop h

theorem sound_step_hex {read : List Nat} {left value : Nat}
    (hb : (Mode.hex read left value).Began ds) :
    (Scanner.step ⟨.hex read left value, ts⟩ c).Sound (cs ++ (ds ++ [c])) := by
  obtain ⟨es, hs, ns, rfl, hes, hhex, rfl, hlength, hleft⟩ := hb
  unfold Scanner.step
  dsimp only
  split
  · exact sound_stop h
  · next d hd =>
    have hhex : List.Forall₂ (fun c d => hexValue? c = some d) (hs ++ [c]) (ns ++ [d]) :=
      List.rel_append hhex (.cons hd .nil)
    have hvalue : 16 * ns.foldl (fun n d => 16 * n + d) 0 + d =
        (ns ++ [d]).foldl (fun n d => 16 * n + d) 0 := by simp
    have hcount : (hs ++ [c]).length = hs.length + 1 := List.length_append
    split
    · -- The last digit ends the escape.
      have hc : StringBody ('\\' :: 'u' :: (hs ++ [c]) ++ [])
          [(ns ++ [d]).foldl (fun n d => 16 * n + d) 0] :=
        .unicode (by omega) hhex .nil
      refine sound_turn h ⟨es ++ '\\' :: 'u' :: (hs ++ [c]), by simp, ?_⟩
      rw [hvalue]
      simpa using hes.append hc
    · exact sound_turn h
        ⟨es, hs ++ [c], ns ++ [d], by simp, hes, hhex, hvalue, by omega, by omega⟩

end Modes

/-- One more character. -/
theorem Sound.step (h : s.Sound cs) (c : Char) : (s.step c).Sound (cs ++ [c]) := by
  rcases h with h | ⟨pre, ds, rfl, hlexed, hbegan⟩
  · exact Or.inl (Stops.mono h (suffix_step s c))
  obtain ⟨mode, ts⟩ := s
  cases mode with
  | between => exact sound_start rfl (Or.inr ⟨pre, ds, rfl, hlexed, hbegan⟩)
  | stopped => exact hbegan.elim
  | number read =>
    obtain rfl : ds = read.reverse := hbegan
    rw [List.append_assoc]
    exact sound_step_number hlexed read
  | word rest t =>
    rw [List.append_assoc]
    exact sound_step_word hlexed hbegan
  | string read =>
    rw [List.append_assoc]
    exact sound_step_string hlexed hbegan
  | escape read =>
    rw [List.append_assoc]
    exact sound_step_escape hlexed hbegan
  | hex read left value =>
    rw [List.append_assoc]
    exact sound_step_hex hlexed hbegan

theorem Sound.foldl (h : s.Sound cs) (ds : List Char) :
    (ds.foldl Scanner.step s).Sound (cs ++ ds) := by
  induction ds generalizing s cs with
  | nil => simpa using h
  | cons d ds ih => simpa using ih (h.step d)

/-- The tokens at the end. -/
theorem Sound.finish (h : s.Sound cs) : Stops s.finish ∨ Lexed cs s.finish := by
  have hstop : Stops s.stop.tokens.reverse := by
    rcases h with h | ⟨pre, ds, rfl, h, -⟩
    · exact Stops.mono h (List.suffix_cons _ _)
    · exact ⟨pre, _, [], h, by simp [stop]⟩
  obtain ⟨mode, ts⟩ := s
  cases mode with
  | between => exact h.lexed (Or.inl rfl)
  | stopped => exact h.lexed (Or.inr rfl)
  | number read => exact (h.endNumber rfl).lexed (mode_endNumber _ read)
  | _ => exact Or.inl hstop

end Scanner

/-- The tokens of a text are its lexemes up to the first place that is no token. -/
theorem lexed_tokens (text : List Char) : Stops (tokens text) ∨ Lexed text (tokens text) := by
  have hstart : Scanner.Sound [] {} := Or.inr ⟨[], [], rfl, .nil blanks_nil, rfl⟩
  exact (hstart.foldl text).finish

/-! ## The builder -/

/-- A reading with a fault. -/
def Reading.Faulty (r : Reading) : Prop := r.root.isIntact = false ∨ r.trailing = true

/-- A member is written as the grammar has it. -/
structure MemberText.Spelled (m : MemberText) : Prop where
  key : SpellsKey m.keyText m.key
  value : Spells m.valueText m.value

/-- Elements as they are written, each before a comma. -/
def elemsText (ps : List (List Char × Tree)) : List Char := ps.flatMap fun p => p.1 ++ [',']

/-- Members as they are written, each before a comma. -/
def membersText (ms : List MemberText) : List Char := ms.flatMap fun m => m.text ++ [',']

/-- The elements of a frame, which has the latest first. -/
def frameElems (ps : List (List Char × Tree)) : List Tree := (ps.map Prod.snd).reverse

/-- The members of a frame, which has the latest first. -/
def frameMembers (ms : List MemberText) : List (Option String × Tree) :=
  (ms.map MemberText.member).reverse

/-- The characters lead to a place for a value inside the frames, innermost first. -/
inductive Awaits : List Char → List Frame → Prop
  | start {bs : List Char} (hb : Blanks bs) : Awaits bs []
  | elem {cs bs : List Char} {fs : List Frame} {ps : List (List Char × Tree)} (h : Awaits cs fs)
    (hps : ∀ p ∈ ps, Spells p.1 p.2) (hb : Blanks bs) :
    Awaits (cs ++ '[' :: (elemsText ps ++ bs)) (.array (frameElems ps) :: fs)
  | member {cs ks bs : List Char} {fs : List Frame} {ms : List MemberText} {k : Option String}
    (h : Awaits cs fs) (hms : ∀ m ∈ ms, m.Spelled) (hk : SpellsKey ks k) (hb : Blanks bs) :
    Awaits (cs ++ '{' :: (membersText ms ++ (ks ++ ':' :: bs)))
      (.member (frameMembers ms) k :: fs)

/-- The characters lead to a place inside the frames where this may come next. -/
inductive Inside : List Char → List Frame → Expect → Prop
  | value {cs : List Char} {fs : List Frame} (h : Awaits cs fs) : Inside cs fs .value
  | firstElem {cs bs : List Char} {fs : List Frame} (h : Awaits cs fs) (hb : Blanks bs) :
    Inside (cs ++ '[' :: bs) (.array [] :: fs) .valueOrEnd
  | firstKey {cs bs : List Char} {fs : List Frame} (h : Awaits cs fs) (hb : Blanks bs) :
    Inside (cs ++ '{' :: bs) (.object [] :: fs) .keyOrEnd
  | key {cs bs : List Char} {fs : List Frame} {ms : List MemberText} (h : Awaits cs fs)
    (hms : ∀ m ∈ ms, m.Spelled) (hb : Blanks bs) :
    Inside (cs ++ '{' :: (membersText ms ++ bs)) (.object (frameMembers ms) :: fs) .key
  | colon {cs ks : List Char} {fs : List Frame} {ms : List MemberText} {k : Option String}
    (h : Awaits cs fs) (hms : ∀ m ∈ ms, m.Spelled) (hk : SpellsKey ks k) :
    Inside (cs ++ '{' :: (membersText ms ++ ks)) (.member (frameMembers ms) k :: fs) .colon
  | afterElem {cs vs : List Char} {fs : List Frame} {ps : List (List Char × Tree)} {t : Tree}
    (h : Awaits cs fs) (hps : ∀ p ∈ ps, Spells p.1 p.2) (hv : Spells vs t) :
    Inside (cs ++ '[' :: (elemsText ps ++ vs)) (.array (t :: frameElems ps) :: fs) .more
  | afterMember {cs : List Char} {fs : List Frame} {ms : List MemberText} {m : MemberText}
    (h : Awaits cs fs) (hms : ∀ m ∈ ms, m.Spelled) (hm : m.Spelled) :
    Inside (cs ++ '{' :: (membersText ms ++ m.text)) (.object (m.member :: frameMembers ms) :: fs)
      .more

/-- The place of the first element. -/
theorem Awaits.first {cs bs : List Char} {fs : List Frame} (h : Awaits cs fs) (hb : Blanks bs) :
    Awaits (cs ++ '[' :: bs) (.array [] :: fs) :=
  .elem h (List.forall_mem_nil _) hb

/-- Texts joined by commas are the last one and the others, each before a comma. -/
theorem intercalate_comma_concat (xs : List (List Char)) (x : List Char) :
    [','].intercalate (xs ++ [x]) = (xs.flatMap fun y => y ++ [',']) ++ x := by
  induction xs with
  | nil => simp
  | cons y ys ih =>
    rw [List.cons_append, List.intercalate_cons_of_ne_nil (by simp), ih]
    simp

/-- Blanks before a value. -/
theorem Spells.after_blanks {bs vs : List Char} {t : Tree} (h : Spells vs t) (hb : Blanks bs) :
    Spells (bs ++ vs) t := by
  simpa using Spells.padded hb h blanks_nil

/-- Blanks behind a value. -/
theorem Spells.before_blanks {bs vs : List Char} {t : Tree} (h : Spells vs t) (hb : Blanks bs) :
    Spells (vs ++ bs) t := by
  simpa using Spells.padded blanks_nil h hb

namespace Builder

/-- The builder after these characters. -/
def Sound (cs : List Char) : Builder → Prop
  | .inside stack e => Inside cs stack e
  | .complete t => Spells cs t
  | .over r => r.Faulty

theorem isIntact_collapse {last : Option Tree} (h : ∀ t ∈ last, t.isIntact = false)
    (stack : List Frame) : (collapse last stack).isIntact = false := by
  induction stack generalizing last with
  | nil =>
    cases last with
    | none => rfl
    | some t => exact h t rfl
  | cons f fs ih =>
    refine ih fun t ht => ?_
    obtain rfl : f.cut last = t := by simpa using ht
    cases f <;> rfl

theorem faulty_collapse (stack : List Frame) : (⟨collapse none stack, false⟩ : Reading).Faulty :=
  Or.inl (isIntact_collapse (by simp) stack)

theorem sound_fail {cs : List Char} (stack : List Frame) : (fail stack).Sound cs :=
  faulty_collapse stack

variable {cs ds bs : List Char} {stack : List Frame}

/-- A value at its place. -/
theorem sound_supply (h : Awaits cs stack) {vs : List Char} {t : Tree} (hv : Spells vs t) :
    (supply t stack).Sound (cs ++ vs) := by
  cases h with
  | start hb => exact hv.after_blanks hb
  | @elem cs bs fs ps h hps hb =>
    have helem := Inside.afterElem h hps (hv.after_blanks hb)
    simpa [supply, Sound] using helem
  | @member cs ks bs fs ms k h hms hk hb =>
    have hmember := Inside.afterMember (m := ⟨ks, k, bs ++ vs, t⟩) h hms
      ⟨hk, hv.after_blanks hb⟩
    simpa [supply, Sound, MemberText.text, MemberText.member] using hmember

/-- A token at the place of a value. -/
theorem sound_value (h : Awaits cs stack) {u : Token} (hl : Lexeme ds u) (hb : Blanks bs) :
    (value stack u).Sound (cs ++ (ds ++ bs)) := by
  have hscalar {t : Tree} (ht : u.scalar? = some t) : (supply t stack).Sound (cs ++ (ds ++ bs)) :=
    sound_supply h (.before_blanks (.scalar hl ht) hb)
  cases hl with
  | openBrace => exact .firstKey h hb
  | openBracket => exact .firstElem h hb
  | closeBrace | closeBracket | comma | colon => exact sound_fail stack
  | null | true | false | number | string => exact hscalar rfl

/-- A token at the place of a key. -/
theorem sound_key (h : Awaits cs stack) {ms : List MemberText} (hms : ∀ m ∈ ms, m.Spelled)
    {bs' : List Char} (hb' : Blanks bs') {u : Token} (hl : Lexeme ds u) (hb : Blanks bs) :
    (key (.object (frameMembers ms) :: stack) u).Sound
      (cs ++ '{' :: (membersText ms ++ bs') ++ (ds ++ bs)) := by
  cases u with
  | string k =>
    have hcolon := Inside.colon h hms (.mk hb' hl hb)
    simpa [key, Sound] using hcolon
  | _ => exact sound_fail _

/-- The elements of an array and its end. -/
theorem spells_array {ps : List (List Char × Tree)} {vs : List Char} {t : Tree}
    (hps : ∀ p ∈ ps, Spells p.1 p.2) (hv : Spells vs t) :
    Spells ('[' :: (elemsText ps ++ vs) ++ [']']) (.array (t :: frameElems ps).reverse true) := by
  have hall : ∀ p ∈ ps ++ [(vs, t)], Spells p.1 p.2 :=
    List.forall_mem_append.mpr ⟨hps, List.forall_mem_singleton.mpr hv⟩
  have harray := Spells.array (by simp) hall
  simpa [intercalate_comma_concat, elemsText, frameElems, List.flatMap_map] using harray

/-- The members of an object and its end. -/
theorem spells_object {ms : List MemberText} {m : MemberText} (hms : ∀ n ∈ ms, n.Spelled)
    (hm : m.Spelled) :
    Spells ('{' :: (membersText ms ++ m.text) ++ ['}'])
      (.object (m.member :: frameMembers ms).reverse true) := by
  have hall : ∀ n ∈ ms ++ [m], n.Spelled :=
    List.forall_mem_append.mpr ⟨hms, List.forall_mem_singleton.mpr hm⟩
  have hobject := Spells.object (by simp) (fun n hn => (hall n hn).key)
    fun n hn => (hall n hn).value
  simpa [intercalate_comma_concat, membersText, frameMembers, List.flatMap_map] using hobject

/-- A token after an element of an array. -/
theorem sound_afterElem (h : Awaits cs stack) {ps : List (List Char × Tree)} {vs : List Char}
    {t : Tree} (hps : ∀ p ∈ ps, Spells p.1 p.2) (hv : Spells vs t) {u : Token}
    (hl : Lexeme ds u) (hb : Blanks bs) :
    (Builder.step (.inside (.array (t :: frameElems ps) :: stack) .more) u).Sound
      (cs ++ '[' :: (elemsText ps ++ vs) ++ (ds ++ bs)) := by
  cases hl with
  | comma =>
    have hall : ∀ p ∈ ps ++ [(vs, t)], Spells p.1 p.2 :=
      List.forall_mem_append.mpr ⟨hps, List.forall_mem_singleton.mpr hv⟩
    have hplace := Inside.value (.elem h hall hb)
    simpa [Builder.step, next, Sound, elemsText, frameElems] using hplace
  | closeBracket =>
    have hsupply := sound_supply h (Spells.before_blanks (spells_array hps hv) hb)
    simpa [Builder.step, endArray] using hsupply
  | _ => exact sound_fail _

/-- A token after a member of an object. -/
theorem sound_afterMember (h : Awaits cs stack) {ms : List MemberText} {m : MemberText}
    (hms : ∀ n ∈ ms, n.Spelled) (hm : m.Spelled) {u : Token} (hl : Lexeme ds u) (hb : Blanks bs) :
    (Builder.step (.inside (.object (m.member :: frameMembers ms) :: stack) .more) u).Sound
      (cs ++ '{' :: (membersText ms ++ m.text) ++ (ds ++ bs)) := by
  cases hl with
  | comma =>
    have hall : ∀ n ∈ ms ++ [m], n.Spelled :=
      List.forall_mem_append.mpr ⟨hms, List.forall_mem_singleton.mpr hm⟩
    have hplace := Inside.key h hall hb
    simpa [Builder.step, next, Sound, membersText, frameMembers] using hplace
  | closeBrace =>
    have hsupply := sound_supply h (Spells.before_blanks (spells_object hms hm) hb)
    simpa [Builder.step, endObject] using hsupply
  | _ => exact sound_fail _

/-- A token inside the frames. -/
theorem sound_inside {e : Expect} (h : Inside cs stack e) {u : Token} (hl : Lexeme ds u)
    (hb : Blanks bs) : (Builder.step (.inside stack e) u).Sound (cs ++ (ds ++ bs)) := by
  cases h with
  | value h => exact sound_value h hl hb
  | firstElem h hb' =>
    have hvalue := sound_value (.first h hb') hl hb
    cases hl with
    | closeBracket =>
      have hsupply := sound_supply h (Spells.before_blanks (.emptyArray hb') hb)
      simpa [Builder.step, endArray] using hsupply
    | _ => exact hvalue
  | firstKey h hb' =>
    have hkey := sound_key h (List.forall_mem_nil _) hb' hl hb
    cases hl with
    | closeBrace =>
      have hsupply := sound_supply h (Spells.before_blanks (.emptyObject hb') hb)
      simpa [Builder.step, endObject] using hsupply
    | _ => exact hkey
  | key h hms hb' => exact sound_key h hms hb' hl hb
  | colon h hms hk =>
    cases hl with
    | colon =>
      have hplace := Inside.value (.member h hms hk hb)
      simpa [Builder.step, Sound] using hplace
    | _ => exact sound_fail _
  | afterElem h hps hv => exact sound_afterElem h hps hv hl hb
  | afterMember h hms hm => exact sound_afterMember h hms hm hl hb

/-- One more token with the blanks behind it. -/
theorem Sound.step {b : Builder} (h : b.Sound cs) {u : Token} (hl : Lexeme ds u)
    (hb : Blanks bs) : (b.step u).Sound (cs ++ (ds ++ bs)) := by
  cases b with
  | inside stack e => exact sound_inside h hl hb
  | complete t => exact Or.inr rfl
  | _ => exact h

/-- The builder after lexemes. -/
theorem sound_foldl {ts : List Token} (h : Lexed cs ts) :
    (ts.foldl Builder.step (.inside [] .value)).Sound cs := by
  induction h with
  | nil hb => exact Inside.value (.start hb)
  | snoc _ hl hb ih =>
    rw [List.foldl_append]
    exact ih.step hl hb

/-- No token is a fault. -/
theorem Sound.step_bad {b : Builder} (h : b.Sound cs) : ∃ r, b.step .bad = .over r ∧ r.Faulty := by
  cases b with
  | complete t => exact ⟨_, rfl, Or.inr rfl⟩
  | inside stack e =>
    have hkey : key stack .bad = fail stack := by
      unfold key
      split
      · next hbad => exact nomatch hbad
      · rfl
    have hfail : Builder.step (.inside stack e) .bad = fail stack := by
      cases e with
      | key | keyOrEnd => exact hkey
      | _ => rfl
    exact ⟨_, hfail, faulty_collapse stack⟩
  | _ => exact ⟨_, rfl, h⟩

end Builder

/-- At the end of the characters either a whole tree is spelled or there is a fault. -/
theorem Builder.Sound.finish {cs : List Char} {b : Builder} (h : b.Sound cs) :
    b.finish.Faulty ∨ Spells cs b.finish.root := by
  cases b with
  | inside stack e => exact Or.inl (Builder.faulty_collapse stack)
  | complete t => exact Or.inr h
  | _ => exact Or.inl h

/-- A text is read with a fault, or it is a text of its tree. -/
theorem faulty_or_spells (text : String) :
    (read text).Faulty ∨ Spells text.toList (read text).root := by
  unfold read
  rcases lexed_tokens text.toList with ⟨pre, us, ws, hlexed, hts⟩ | hlexed
  · -- Nothing after what is no token counts.
    obtain ⟨r, hr, hfaulty⟩ := (Builder.sound_foldl hlexed).step_bad
    rw [hts, List.foldl_append, List.foldl_cons, hr, Builder.foldl_over]
    exact Or.inl hfaulty
  · exact (Builder.sound_foldl hlexed).finish

/-- A text that is read without a fault is a text of its tree. -/
theorem spells_of_read {text : String} {t : Tree} (h : read text = ⟨t, false⟩)
    (ht : t.isIntact = true) : Spells text.toList t := by
  have hread := faulty_or_spells text
  rw [h] at hread
  rcases hread with (hbroken | htrailing) | hspells
  · simp [ht] at hbroken
  · exact nomatch htrailing
  · exact hspells

/-- The texts that are read without a fault are those of the grammar, each with its tree. -/
theorem spells_iff_read {text : String} {t : Tree} :
    Spells text.toList t ↔ read text = ⟨t, false⟩ ∧ t.isIntact = true :=
  ⟨fun h => ⟨h.read_eq, h.isIntact⟩, fun h => spells_of_read h.1 h.2⟩

end SodiumDecl.Json

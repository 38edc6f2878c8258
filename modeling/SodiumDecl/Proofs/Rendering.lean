import Mathlib.Data.List.Basic
import SodiumDecl.Proofs.Outline

/-!
# Reading documents back

Rendering loses no declaration: the outline of a document is decoded from its text
(`decode_render`), so two documents with one text declare the same (`outline_eq_of_render_eq`).
It takes names that are names, types and other texts that break no line, and types of parameters
that hold neither of the two marks that parameter lists are read by (`Document.Readable`).
-/

namespace SodiumDecl

/-! ## Readable documents -/

/-- A name is made of letters, digits, underscores and dollar signs. -/
def IsPlain (n : String) : Prop :=
  n ≠ "" ∧ ∀ c ∈ n.toList, c.isAlphanum = true ∨ c = '_' ∨ c = '$'

/-- A text has no line feed. -/
def OneLine (s : String) : Prop := '\n' ∉ s.toList

instance (s : String) : Decidable (OneLine s) := inferInstanceAs (Decidable (_ ∉ _))

/-- A parameter can be told from what stands around it. -/
structure Param.Readable (p : Param) : Prop where
  name : IsPlain p.name
  oneLine : OneLine p.type.text
  noComma : ¬ [',', ' '] <:+: p.type.text.toList
  noBracket : ¬ [')', ':', ' '] <:+: p.type.text.toList

/-- All names of a document are plain, nothing in it breaks a line, and the types of parameters
hold neither of the marks that parameter lists are read by. -/
structure Document.Readable (d : Document) : Prop where
  module : OneLine d.module
  version : OneLine d.version
  aliases : ∀ a ∈ d.aliases, IsPlain a.name ∧ OneLine a.type.text
  enumerations : ∀ e ∈ d.enumerations, IsPlain e.name ∧ ∀ m ∈ e.members, IsPlain m
  records : ∀ r ∈ d.records, IsPlain r.name ∧
    ∀ f ∈ r.fields, IsPlain f.name ∧ OneLine f.type.text
  constants : ∀ k ∈ d.constants, IsPlain k.name ∧ OneLine k.type.text
  functions : ∀ f ∈ d.functions, IsPlain f.name ∧
    ∀ o ∈ f.overloads, OneLine o.returns.text ∧ ∀ p ∈ o.params, p.Readable

theorem IsPlain.not_mem {n : String} (h : IsPlain n) {c : Char} (hc : c.isAlphanum = false)
    (h1 : c ≠ '_') (h2 : c ≠ '$') : c ∉ n.toList := by
  intro hm
  rcases h.2 c hm with h | h | h
  · simp [hc] at h
  · exact h1 h
  · exact h2 h

theorem IsPlain.oneLine {n : String} (h : IsPlain n) : OneLine n :=
  h.not_mem (by decide) (by decide) (by decide)

theorem readable_selector (f : OutputFormat) : f.selector.Readable := by
  have ht : f.selector.type.text = f.aliasName ++ " | null" := by cases f <;> rfl
  have hc : ∀ c ∈ ['\n', ',', ')'], c ∉ f.selector.type.text.toList := by
    rw [ht]
    cases f <;> simp [OutputFormat.aliasName]
  refine ⟨⟨by simp [OutputFormat.selector], ?_⟩, hc '\n' (by simp), fun h => ?_, fun h => ?_⟩
  · simp [OutputFormat.selector]
  · exact hc ',' (by simp) (h.subset (by simp))
  · exact hc ')' (by simp) (h.subset (by simp))

theorem readable_of_mem_allParams {o : Overload} (h : ∀ p ∈ o.params, p.Readable) {p : Param}
    (hp : p ∈ o.allParams) : p.Readable := by
  rcases List.mem_append.mp hp with hp | hp
  · exact h p hp
  · obtain ⟨f, -, rfl⟩ := by simpa using hp
    exact readable_selector f

/-! ## Reading one line back -/

section Lines

variable {rest : List Char}

theorem ofText_word {w : List Char} (hw : w ≠ []) (hs : ' ' ∉ w) :
    Line.ofText ([' ', ' '] ++ (w ++ ([' '] ++ rest))) = readWord (String.ofList w) rest := by
  obtain ⟨c, cs, rfl⟩ := List.exists_cons_of_ne_nil hw
  have hc : ' ' ≠ c := fun h => hs (h ▸ List.mem_cons_self)
  have havoids : Avoids [' '] (c :: cs) ([' '] ++ rest) := avoids_of_not_mem hs
  have hcut := cut?_append havoids (by simp)
  simp only [Line.ofText, List.cons_append, List.nil_append, strip?, if_true, if_neg hc,
    Option.bind_some]
  simp only [List.cons_append, List.nil_append] at hcut
  rw [hcut]

theorem ofText_inner : Line.ofText ([' ', ' ', ' ', ' '] ++ rest) = readInner rest := by
  rw [Line.ofText, strip?_append]

theorem readTyped_append {n t : String} {m : Char} {ms : List Char} (h : m ∉ n.toList) :
    readTyped (m :: ms) (n.toList ++ ((m :: ms) ++ (t.toList ++ [';']))) = some (n, t) := by
  rw [readTyped, cut?_append (avoids_of_not_mem h) (by simp)]
  simp

theorem ofText_alias {a : TypeAlias} (h : IsPlain a.name) :
    Line.ofText a.line.toList = .alias a.name a.type.text := by
  have hl : a.line.toList = [' ', ' '] ++ ("type".toList ++ ([' '] ++
      (a.name.toList ++ ([' ', '=', ' '] ++ (a.type.text.toList ++ [';']))))) := by
    simp [TypeAlias.line]
  have hn : ' ' ∉ a.name.toList := h.not_mem (by decide) (by decide) (by decide)
  rw [hl, ofText_word (by simp) (by simp), readWord, readTyped_append hn]
  simp

theorem ofText_constant {k : ConstantDecl} (h : IsPlain k.name) :
    Line.ofText k.line.toList = .constant k.name k.type.text := by
  have hl : k.line.toList = [' ', ' '] ++ ("const".toList ++ ([' '] ++
      (k.name.toList ++ ([':', ' '] ++ (k.type.text.toList ++ [';']))))) := by
    simp [ConstantDecl.line]
  have hn : ':' ∉ k.name.toList := h.not_mem (by decide) (by decide) (by decide)
  rw [hl, ofText_word (by simp) (by simp), readWord, readTyped_append hn]
  simp

theorem ofText_field {f : Field} (h : IsPlain f.name) :
    Line.ofText f.line.toList = .field f.name f.type.text := by
  have hl : f.line.toList = [' ', ' ', ' ', ' '] ++
      (f.name.toList ++ ([':', ' '] ++ (f.type.text.toList ++ [';']))) := by
    simp [Field.line]
  have hn : ':' ∉ f.name.toList := h.not_mem (by decide) (by decide) (by decide)
  rw [hl, ofText_inner, readInner, readTyped_append hn]

theorem ofText_member {m : String} (h : IsPlain m) :
    Line.ofText ("    " ++ m ++ ",").toList = .member m := by
  have hl : ("    " ++ m ++ ",").toList = [' ', ' ', ' ', ' '] ++ (m.toList ++ [',']) := by simp
  have hn : ':' ∉ m.toList ++ [','] := by
    simpa using h.not_mem (c := ':') (by decide) (by decide) (by decide)
  rw [hl, ofText_inner, readInner, readTyped, cut?_eq_none (avoids_of_not_mem hn)]
  simp

theorem ofText_enumeration (n : String) :
    Line.ofText ("  enum " ++ n ++ " \x7b").toList = .enumeration n := by
  have hl : ("  enum " ++ n ++ " \x7b").toList =
      [' ', ' '] ++ ("enum".toList ++ ([' '] ++ (n.toList ++ [' ', '\x7b']))) := by simp
  rw [hl, ofText_word (by simp) (by simp), readWord]
  simp

theorem ofText_record (n : String) :
    Line.ofText ("  interface " ++ n ++ " \x7b").toList = .record n := by
  have hl : ("  interface " ++ n ++ " \x7b").toList =
      [' ', ' '] ++ ("interface".toList ++ ([' '] ++ (n.toList ++ [' ', '\x7b']))) := by simp
  rw [hl, ofText_word (by simp) (by simp), readWord]
  simp

/-! ## Reading a signature back -/

/-- A parameter starts with its name and the mark, in which no separator can start. -/
theorem toList_paramText (p : Param) : p.text.toList =
    (p.name.toList ++ (if p.optional then ['?'] else []) ++ [':', ' ']) ++ p.type.text.toList := by
  cases h : p.optional <;> simp [Param.text, h]

theorem Param.Readable.not_mem {p : Param} (h : p.Readable) {c : Char}
    (hc : c.isAlphanum = false) (h1 : c ≠ '_') (h2 : c ≠ '$') (h3 : c ∉ ['?', ':', ' ']) :
    c ∉ p.name.toList ++ (if p.optional then ['?'] else []) ++ [':', ' '] := by
  have hn := h.name.not_mem hc h1 h2
  split <;> simp_all

theorem Param.Readable.avoids_comma {p : Param} (h : p.Readable)
    (hr : ∀ c ∈ rest.head?, c ≠ ' ') : Avoids [',', ' '] p.text.toList rest := by
  rw [toList_paramText]
  refine (avoids_of_not_mem (h.not_mem (by decide) (by decide) (by decide) (by decide))).append ?_
  exact avoids_of_not_infix h.noComma (by simpa using hr)

theorem Param.Readable.avoids_bracket {p : Param} (h : p.Readable)
    (hr : ∀ c ∈ rest.head?, c ≠ ':' ∧ c ≠ ' ') : Avoids [')', ':', ' '] p.text.toList rest := by
  rw [toList_paramText]
  refine (avoids_of_not_mem (h.not_mem (by decide) (by decide) (by decide) (by decide))).append ?_
  exact avoids_of_not_infix h.noBracket (by simpa using hr)

theorem readParam_text {p : Param} (h : p.Readable) :
    readParam p.text.toList = (p.name, p.optional, p.type.text) := by
  have hcolon : ':' ∉ p.name.toList ++ (if p.optional then ['?'] else []) := by
    have hn : ':' ∉ p.name.toList := h.name.not_mem (by decide) (by decide) (by decide)
    split <;> simp [hn]
  have hmark : '?' ∉ p.name.toList := h.name.not_mem (by decide) (by decide) (by decide)
  have hfilter : p.name.toList.filter (· ≠ '?') = p.name.toList :=
    List.filter_eq_self.mpr fun c hc => by
      simpa using fun he : c = '?' => hmark (he ▸ hc)
  rw [toList_paramText, List.append_assoc, readParam,
    cut?_append (avoids_of_not_mem hcolon) (by simp)]
  dsimp only
  rw [List.filter_append, hfilter]
  cases h : p.optional <;> simp [hmark]

theorem toList_paramsText (o : Overload) :
    o.paramsText.toList = [',', ' '].intercalate (o.allParams.map fun p => p.text.toList) := by
  simp [Overload.paramsText, String.toList_intercalate, Function.comp_def]

theorem readParams_paramsText {o : Overload} (h : ∀ p ∈ o.params, p.Readable) :
    readParams o.paramsText.toList =
      o.allParams.map fun p => (p.name, p.optional, p.type.text) := by
  have hread : ∀ p ∈ o.allParams, p.Readable := fun p hp => readable_of_mem_allParams h hp
  rw [toList_paramsText]
  by_cases hnil : o.allParams = []
  · simp [readParams, hnil]
  · have hpieces : Text.pieces [',', ' '] 0
        ([',', ' '].intercalate (o.allParams.map fun p => p.text.toList)) =
          o.allParams.map fun p => p.text.toList := by
      refine pieces_intercalate (by simp) (by simpa using hnil) fun l hl => ?_
      obtain ⟨p, hp, rfl⟩ := List.mem_map.mp hl
      exact ⟨(hread p hp).avoids_comma (by simp), fun b => (hread p hp).avoids_comma (by simp)⟩
    have hne : [',', ' '].intercalate (o.allParams.map fun p => p.text.toList) ≠ [] := by
      intro he
      rw [he] at hpieces
      obtain ⟨p, ps, hps⟩ := List.exists_cons_of_ne_nil hnil
      rw [hps] at hpieces
      have hp : p.text.toList = [] := (List.cons.inj hpieces).1.symm
      simp [toList_paramText] at hp
    rw [readParams, if_neg hne, hpieces, List.map_map]
    exact List.map_congr_left fun p hp => readParam_text (hread p hp)

theorem Overload.line_eq (o : Overload) (n : String) :
    o.line n = "  function " ++ n ++ "(" ++ o.paramsText ++ "): " ++ o.returns.text ++ ";" := rfl

theorem ofText_signature {n : String} (hn : IsPlain n) {o : Overload}
    (h : ∀ p ∈ o.params, p.Readable) :
    Line.ofText (o.line n).toList = .signature (o.outline n) := by
  have hl : (o.line n).toList = [' ', ' '] ++ ("function".toList ++ ([' '] ++
      (n.toList ++ (['('] ++ (o.paramsText.toList ++ ([')', ':', ' '] ++
        (o.returns.text.toList ++ [';']))))))) := by
    simp [Overload.line_eq]
  have hopen : '(' ∉ n.toList := hn.not_mem (by decide) (by decide) (by decide)
  have hclose : Avoids [')', ':', ' '] o.paramsText.toList
      ([')', ':', ' '] ++ (o.returns.text.toList ++ [';'])) := by
    have hread : ∀ p ∈ o.allParams, p.Readable := fun p hp => readable_of_mem_allParams h hp
    rw [toList_paramsText]
    refine avoids_intercalate (fun _ => avoids_of_not_mem (by simp)) (fun l hl b => ?_)
      fun l hl => ?_
    · obtain ⟨p, hp, rfl⟩ := List.mem_map.mp hl
      exact (hread p hp).avoids_bracket (by simp)
    · obtain ⟨p, hp, rfl⟩ := List.mem_map.mp hl
      exact (hread p hp).avoids_bracket (by simp)
  have hsig : readSignature (n.toList ++ (['('] ++ (o.paramsText.toList ++ ([')', ':', ' '] ++
      (o.returns.text.toList ++ [';']))))) = some (o.outline n) := by
    rw [readSignature, cut?_append (avoids_of_not_mem hopen) (by simp)]
    simp only [Option.bind_eq_bind, Option.bind_some]
    rw [cut?_append hclose (by simp)]
    simp [readParams_paramsText h, Overload.outline]
  rw [hl, ofText_word (by simp) (by simp), readWord, hsig, String.ofList_toList]
  simp only [String.reduceEq, if_false, if_true, Option.map_some, Option.getD_some]

end Lines

/-! ## Reading all lines back -/

/-- The lines of an enumeration. -/
def Enumeration.read (e : Enumeration) : List Line :=
  .enumeration e.name :: (e.members.map .member ++ [.other, .other])

/-- The lines of a record. -/
def Record.read (r : Record) : List Line :=
  .record r.name :: (r.fields.map (fun f => .field f.name f.type.text) ++ [.other, .other])

/-- The lines of a function. -/
def FunctionDecl.read (f : FunctionDecl) : List Line :=
  f.overloads.map fun o => .signature (o.outline f.name)

theorem ofText_blank : Line.ofText "".toList = .other := by simp [Line.ofText, strip?]

theorem ofText_close : Line.ofText "  \x7d".toList = .other := by simp [Line.ofText, strip?, cut?]

theorem map_ofText_enumeration {e : Enumeration} (h : ∀ m ∈ e.members, IsPlain m) :
    e.lines.map (fun l => Line.ofText l.toList) = e.read := by
  have hm : e.members.map (fun m => Line.ofText ("    " ++ m ++ ",").toList) =
      e.members.map .member := List.map_congr_left fun m hm => ofText_member (h m hm)
  simp only [Enumeration.lines, Enumeration.read, List.map_cons, List.map_append, List.map_map,
    Function.comp_def, hm, List.map_nil, ofText_enumeration, ofText_blank, ofText_close,
    List.cons_append]

theorem map_ofText_record {r : Record} (h : ∀ f ∈ r.fields, IsPlain f.name) :
    r.lines.map (fun l => Line.ofText l.toList) = r.read := by
  have hf : r.fields.map (fun f => Line.ofText f.line.toList) =
      r.fields.map fun f => .field f.name f.type.text :=
    List.map_congr_left fun f hf => ofText_field (h f hf)
  simp only [Record.lines, Record.read, List.map_cons, List.map_append, List.map_map,
    Function.comp_def, hf, List.map_nil, ofText_record, ofText_blank, ofText_close,
    List.cons_append]

theorem map_ofText_function {f : FunctionDecl} (hn : IsPlain f.name)
    (h : ∀ o ∈ f.overloads, ∀ p ∈ o.params, p.Readable) :
    f.lines.map (fun l => Line.ofText l.toList) = f.read := by
  have ho : f.overloads.map (fun o => Line.ofText (o.line f.name).toList) =
      f.overloads.map fun o => .signature (o.outline f.name) :=
    List.map_congr_left fun o ho => ofText_signature hn (h o ho)
  simp only [FunctionDecl.lines, FunctionDecl.read, List.map_map, Function.comp_def, ho]

/-- The lines of a document after its head. -/
def Document.read (d : Document) : List Line :=
  d.aliases.map (fun a => .alias a.name a.type.text) ++ [.other]
    ++ d.enumerations.flatMap Enumeration.read ++ d.records.flatMap Record.read
    ++ d.constants.map (fun k => .constant k.name k.type.text) ++ [.other]
    ++ d.functions.flatMap FunctionDecl.read

theorem map_ofText_body {d : Document} (h : d.Readable) :
    d.body.map (fun l => Line.ofText l.toList) = d.read := by
  have ha : d.aliases.map (fun a => Line.ofText a.line.toList) =
      d.aliases.map fun a => .alias a.name a.type.text :=
    List.map_congr_left fun a ha => ofText_alias (h.aliases a ha).1
  have he : d.enumerations.flatMap (fun e => e.lines.map fun l => Line.ofText l.toList) =
      d.enumerations.flatMap Enumeration.read :=
    List.flatMap_congr fun e he => map_ofText_enumeration (h.enumerations e he).2
  have hr : d.records.flatMap (fun r => r.lines.map fun l => Line.ofText l.toList) =
      d.records.flatMap Record.read :=
    List.flatMap_congr fun r hr => map_ofText_record fun f hf => ((h.records r hr).2 f hf).1
  have hk : d.constants.map (fun k => Line.ofText k.line.toList) =
      d.constants.map fun k => .constant k.name k.type.text :=
    List.map_congr_left fun k hk => ofText_constant (h.constants k hk).1
  have hf : d.functions.flatMap (fun f => f.lines.map fun l => Line.ofText l.toList) =
      d.functions.flatMap FunctionDecl.read :=
    List.flatMap_congr fun f hf =>
      map_ofText_function (h.functions f hf).1 fun o ho => ((h.functions f hf).2 o ho).2
  simp only [Document.body, Document.read, List.map_append, List.map_map, List.map_flatMap,
    Function.comp_def, List.map_cons, List.map_nil, ofText_blank, ha, he, hr, hk, hf]

/-! ## Collecting what was read -/

theorem enumerationsOf_skip {xs : List Line}
    (h : ∀ l ∈ xs, ∀ ys, enumerationsOf (l :: ys) = enumerationsOf ys) (ys : List Line) :
    enumerationsOf (xs ++ ys) = enumerationsOf ys := by
  induction xs with
  | nil => rfl
  | cons x xs ih =>
    rw [List.cons_append, h x List.mem_cons_self, ih fun l hl => h l (List.mem_cons_of_mem _ hl)]

theorem recordsOf_skip {xs : List Line}
    (h : ∀ l ∈ xs, ∀ ys, recordsOf (l :: ys) = recordsOf ys) (ys : List Line) :
    recordsOf (xs ++ ys) = recordsOf ys := by
  induction xs with
  | nil => rfl
  | cons x xs ih =>
    rw [List.cons_append, h x List.mem_cons_self, ih fun l hl => h l (List.mem_cons_of_mem _ hl)]

theorem enumerationsOf_members (ms : List String) (ys : List Line) :
    enumerationsOf (ms.map .member ++ ys) =
      (ms ++ (enumerationsOf ys).1, (enumerationsOf ys).2) := by
  induction ms with
  | nil => rfl
  | cons m ms ih =>
    rw [List.map_cons, List.cons_append, enumerationsOf, ih]
    rfl

theorem recordsOf_fields (fs : List Field) (ys : List Line) :
    recordsOf (fs.map (fun f => .field f.name f.type.text) ++ ys) =
      (fs.map (fun f => (f.name, f.type.text)) ++ (recordsOf ys).1, (recordsOf ys).2) := by
  induction fs with
  | nil => rfl
  | cons f fs ih =>
    rw [List.map_cons, List.cons_append, recordsOf, ih]
    rfl

theorem enumerationsOf_blocks (es : List Enumeration) {ys : List Line}
    (hy : (enumerationsOf ys).1 = []) :
    enumerationsOf (es.flatMap Enumeration.read ++ ys) =
      ([], es.map (fun e => (e.name, e.members)) ++ (enumerationsOf ys).2) := by
  induction es with
  | nil => simp [← hy]
  | cons e es ih =>
    rw [List.flatMap_cons, List.append_assoc, Enumeration.read, List.cons_append,
      enumerationsOf, List.append_assoc, enumerationsOf_members]
    simp [enumerationsOf, ih]

theorem recordsOf_blocks (rs : List Record) {ys : List Line} (hy : (recordsOf ys).1 = []) :
    recordsOf (rs.flatMap Record.read ++ ys) =
      ([], rs.map (fun r => (r.name, r.fields.map fun f => (f.name, f.type.text)))
        ++ (recordsOf ys).2) := by
  induction rs with
  | nil => simp [← hy]
  | cons r rs ih =>
    rw [List.flatMap_cons, List.append_assoc, Record.read, List.cons_append, recordsOf,
      List.append_assoc, recordsOf_fields]
    simp [recordsOf, ih]

theorem enumerationsOf_read (d : Document) :
    (enumerationsOf (d.read ++ [.other, .other])).2 =
      d.enumerations.map fun e => (e.name, e.members) := by
  have hrecords : ∀ l ∈ d.records.flatMap Record.read, ∀ ys,
      enumerationsOf (l :: ys) = enumerationsOf ys := by
    intro l hl ys
    obtain ⟨r, -, hl⟩ := List.mem_flatMap.mp hl
    simp only [Record.read, List.mem_cons, List.mem_append, List.mem_map, List.not_mem_nil] at hl
    rcases hl with rfl | ⟨f, -, rfl⟩ | rfl | rfl | h
    all_goals first | rfl | exact h.elim
  have hfunctions : ∀ l ∈ d.functions.flatMap FunctionDecl.read, ∀ ys,
      enumerationsOf (l :: ys) = enumerationsOf ys := by
    intro l hl ys
    obtain ⟨f, -, hl⟩ := List.mem_flatMap.mp hl
    obtain ⟨o, -, rfl⟩ := List.mem_map.mp hl
    rfl
  simp only [Document.read, List.append_assoc]
  rw [enumerationsOf_skip (by simp [enumerationsOf]),
    enumerationsOf_skip (by simp [enumerationsOf])]
  have hrest : enumerationsOf (d.records.flatMap Record.read ++
      (d.constants.map (fun k => .constant k.name k.type.text) ++ ([.other] ++
        (d.functions.flatMap FunctionDecl.read ++ [.other, .other])))) = ([], []) := by
    rw [enumerationsOf_skip hrecords, enumerationsOf_skip (by simp [enumerationsOf]),
      enumerationsOf_skip (by simp [enumerationsOf]), enumerationsOf_skip hfunctions]
    rfl
  rw [enumerationsOf_blocks _ (by rw [hrest]), hrest, List.append_nil]

theorem recordsOf_read (d : Document) :
    (recordsOf (d.read ++ [.other, .other])).2 =
      d.records.map fun r => (r.name, r.fields.map fun f => (f.name, f.type.text)) := by
  have henumerations : ∀ l ∈ d.enumerations.flatMap Enumeration.read, ∀ ys,
      recordsOf (l :: ys) = recordsOf ys := by
    intro l hl ys
    obtain ⟨e, -, hl⟩ := List.mem_flatMap.mp hl
    simp only [Enumeration.read, List.mem_cons, List.mem_append, List.mem_map,
      List.not_mem_nil] at hl
    rcases hl with rfl | ⟨m, -, rfl⟩ | rfl | rfl | h
    all_goals first | rfl | exact h.elim
  have hfunctions : ∀ l ∈ d.functions.flatMap FunctionDecl.read, ∀ ys,
      recordsOf (l :: ys) = recordsOf ys := by
    intro l hl ys
    obtain ⟨f, -, hl⟩ := List.mem_flatMap.mp hl
    obtain ⟨o, -, rfl⟩ := List.mem_map.mp hl
    rfl
  simp only [Document.read, List.append_assoc]
  rw [recordsOf_skip (by simp [recordsOf]), recordsOf_skip (by simp [recordsOf]),
    recordsOf_skip henumerations]
  have hrest : recordsOf (d.constants.map (fun k => .constant k.name k.type.text) ++ ([.other] ++
      (d.functions.flatMap FunctionDecl.read ++ [.other, .other]))) = ([], []) := by
    rw [recordsOf_skip (by simp [recordsOf]), recordsOf_skip (by simp [recordsOf]),
      recordsOf_skip hfunctions]
    rfl
  rw [recordsOf_blocks _ (by rw [hrest]), hrest, List.append_nil]

/-- The lines of a document make up its outline. -/
theorem ofLines_read (d : Document) :
    Outline.ofLines d.module d.version (d.read ++ [.other, .other]) = d.outline := by
  have hnil {α β : Type} (xs : List α) : xs.flatMap (fun _ => ([] : List β)) = [] := by simp
  simp only [Outline.ofLines, Document.outline, enumerationsOf_read, recordsOf_read]
  congr 1 <;> simp [Document.read, List.filterMap_flatMap, Enumeration.read, Record.read,
    FunctionDecl.read, hnil]

/-! ## The text -/

/-- The text of some lines is cut at its line feeds into the pieces of each line, and what is
behind the last one. -/
theorem splitOn_join (ls : List String) :
    (String.join (ls.map (· ++ "\n"))).toList.splitOn '\n' =
      ls.flatMap (·.toList.splitOn '\n') ++ [[]] := by
  induction ls with
  | nil => simp
  | cons l ls ih =>
    simp only [List.map_cons, String.join_cons, String.toList_append] at ih ⊢
    have hl : l.toList ++ "\n".toList ++ (String.join (ls.map (· ++ "\n"))).toList =
        l.toList ++ '\n' :: (String.join (ls.map (· ++ "\n"))).toList := by simp
    rw [hl, List.splitOn_append_cons_self, ih]
    simp

theorem flatMap_splitOn {ls : List String} (h : ∀ l ∈ ls, OneLine l) :
    ls.flatMap (·.toList.splitOn '\n') = ls.map String.toList := by
  rw [List.map_eq_flatMap]
  exact List.flatMap_congr fun l hl => List.splitOn_eq_singleton (h l hl)

theorem splitOn_lines {ls : List String} (h : ∀ l ∈ ls, OneLine l) :
    (String.join (ls.map (· ++ "\n"))).toList.splitOn '\n' = ls.map String.toList ++ [[]] := by
  rw [splitOn_join, flatMap_splitOn h]

theorem not_mem_intercalate {c : Char} {sep : List Char} {ls : List (List Char)} (hs : c ∉ sep)
    (h : ∀ l ∈ ls, c ∉ l) : c ∉ sep.intercalate ls := by
  induction ls with
  | nil => simp
  | cons l ls ih =>
    have hl := h l List.mem_cons_self
    have ih := ih fun k hk => h k (List.mem_cons_of_mem _ hk)
    cases ls with
    | nil => simpa using hl
    | cons k ls =>
      rw [List.intercalate_cons_cons]
      simp [hl, hs, ih]

theorem oneLine_paramText {p : Param} (h : p.Readable) : OneLine p.text := by
  have hn := h.name.oneLine
  have ht := h.oneLine
  unfold OneLine at *
  rw [toList_paramText]
  split <;> simp [hn, ht]

theorem oneLine_paramsText {o : Overload} (h : ∀ p ∈ o.params, p.Readable) :
    OneLine o.paramsText := by
  unfold OneLine
  rw [toList_paramsText]
  refine not_mem_intercalate (by simp) fun l hl => ?_
  obtain ⟨p, hp, rfl⟩ := List.mem_map.mp hl
  exact oneLine_paramText (readable_of_mem_allParams h hp)

theorem oneLine_alias {a : TypeAlias} (hn : IsPlain a.name) (ht : OneLine a.type.text) :
    OneLine a.line := by
  have hn := hn.oneLine
  unfold OneLine at *
  simp [TypeAlias.line, hn, ht]

theorem oneLine_field {f : Field} (hn : IsPlain f.name) (ht : OneLine f.type.text) :
    OneLine f.line := by
  have hn := hn.oneLine
  unfold OneLine at *
  simp [Field.line, hn, ht]

theorem oneLine_constant {k : ConstantDecl} (hn : IsPlain k.name) (ht : OneLine k.type.text) :
    OneLine k.line := by
  have hn := hn.oneLine
  unfold OneLine at *
  simp [ConstantDecl.line, hn, ht]

theorem oneLine_enumeration {e : Enumeration} (hn : IsPlain e.name)
    (hm : ∀ m ∈ e.members, IsPlain m) : ∀ l ∈ e.lines, OneLine l := by
  have hn := hn.oneLine
  have hms : ∀ m ∈ e.members, OneLine m := fun m h => (hm m h).oneLine
  unfold OneLine at *
  simpa [Enumeration.lines, hn, or_imp, forall_and] using hms

theorem oneLine_record {r : Record} (hn : IsPlain r.name)
    (hf : ∀ f ∈ r.fields, IsPlain f.name ∧ OneLine f.type.text) : ∀ l ∈ r.lines, OneLine l := by
  have hn := hn.oneLine
  have hfs : ∀ f ∈ r.fields, OneLine f.line := fun f h => oneLine_field (hf f h).1 (hf f h).2
  unfold OneLine at *
  simpa [Record.lines, hn, or_imp, forall_and] using hfs

theorem oneLine_signature {n : String} (hn : IsPlain n) {o : Overload}
    (hr : OneLine o.returns.text) (h : ∀ p ∈ o.params, p.Readable) : OneLine (o.line n) := by
  have hn := hn.oneLine
  have hps := oneLine_paramsText h
  unfold OneLine at *
  simp [Overload.line_eq, hn, hr, hps]

theorem oneLine_head {d : Document} (hm : OneLine d.module) (hv : OneLine d.version) :
    ∀ l ∈ d.head, OneLine l := by
  unfold OneLine at *
  simp [Document.head, hm, hv]

/-- No line of a document is broken. -/
theorem oneLine_lines {d : Document} (h : d.Readable) : ∀ l ∈ d.lines, OneLine l := by
  have hblank : OneLine "" := by simp [OneLine]
  have hclose : OneLine "\x7d" := by simp [OneLine]
  intro l hl
  simp only [Document.lines, Document.body, List.mem_append, List.mem_map, List.mem_flatMap,
    List.mem_singleton] at hl
  rcases hl with (hl | (((((⟨a, ha, rfl⟩ | rfl) | ⟨e, he, hl⟩) | ⟨r, hr, hl⟩) | ⟨k, hk, rfl⟩)
    | rfl) | ⟨f, hf, hl⟩) | rfl
  · exact oneLine_head h.module h.version l hl
  · exact oneLine_alias (h.aliases a ha).1 (h.aliases a ha).2
  · exact hblank
  · exact oneLine_enumeration (h.enumerations e he).1 (h.enumerations e he).2 l hl
  · exact oneLine_record (h.records r hr).1 (h.records r hr).2 l hl
  · exact oneLine_constant (h.constants k hk).1 (h.constants k hk).2
  · exact hblank
  · obtain ⟨o, ho, rfl⟩ := List.mem_map.mp hl
    obtain ⟨hreturns, hparams⟩ := (h.functions f hf).2 o ho
    exact oneLine_signature (h.functions f hf).1 hreturns hparams
  · exact hclose

/-- A readable document is read back from its text. -/
theorem decode_render {d : Document} (h : d.Readable) :
    Outline.decode d.render = some d.outline := by
  have hlines : d.render.toList.splitOn '\n' =
      d.head.map String.toList ++ (d.body ++ ["\x7d"]).map String.toList ++ [[]] := by
    rw [Document.render, splitOn_lines (oneLine_lines h), Document.lines]
    simp
  have hopening : strip? "declare module '".toList
      ("declare module '" ++ d.module ++ "' \x7b").toList =
        some (d.module.toList ++ "' \x7b".toList) := by
    rw [String.append_assoc, String.toList_append, strip?_append, String.toList_append]
  have hmodule : (d.module.toList ++ "' \x7b".toList).take
      ((d.module.toList ++ "' \x7b".toList).length - 3) = d.module.toList := by
    simp
  have htitle : strip? ("// Type definitions for ".toList ++ d.module.toList ++ [' '])
      ("// Type definitions for " ++ d.module ++ " " ++ d.version).toList =
        some d.version.toList := by
    have ht : ("// Type definitions for " ++ d.module ++ " " ++ d.version).toList =
        ("// Type definitions for ".toList ++ d.module.toList ++ [' ']) ++ d.version.toList := by
      simp
    rw [ht, strip?_append]
  have hbody : ((d.body ++ ["\x7d"]).map String.toList ++ [[]]).map Line.ofText =
      d.read ++ [.other, .other] := by
    have hb := map_ofText_body h
    rw [← Function.comp_def, ← List.map_map] at hb
    simp only [List.map_append, hb]
    simp [Line.ofText, strip?]
  rw [Outline.decode, hlines]
  simp only [Document.head, List.map_cons, List.map_nil, List.cons_append, List.nil_append,
    hopening, Option.bind_eq_bind, Option.bind_some, hmodule, htitle, hbody]
  simp [ofLines_read]

/-- Readable documents are read back from their texts, and two that have one text declare the same,
with the same types. -/
theorem outline_eq_of_render_eq {d e : Document} (hd : d.Readable) (he : e.Readable) :
    Outline.decode d.render = some d.outline ∧ Outline.decode e.render = some e.outline ∧
      (d.render = e.render → d.outline = e.outline) := by
  refine ⟨decode_render hd, decode_render he, fun h => ?_⟩
  have hd := decode_render hd
  rw [h, decode_render he] at hd
  exact (Option.some.inj hd).symm

/-- A document with one declaration of each kind, of which the alias is for a given type. -/
def sampleDocument (a : TypeExpr) : Document where
  module := "m"
  version := "1"
  aliases := [⟨"A", a⟩]
  enumerations := [⟨"E", ["X"]⟩]
  records := [⟨"R", [⟨"f", .number⟩]⟩]
  constants := [⟨"K", .named "a: b;"⟩]
  functions := [⟨"g", [⟨[⟨"x", .named "(a)", false⟩], some .binary, .named "): c"⟩]⟩]

theorem outline_eq_of_render_eq_sample :
    (sampleDocument (.union [.number, .null])).Readable ∧
      (sampleDocument (.named "number | null")).Readable ∧
      Outline.decode (sampleDocument (.union [.number, .null])).render =
        some (sampleDocument (.named "number | null")).outline := by
  have hparam : (Param.mk "x" (.named "(a)") false).Readable := by
    refine ⟨?_, ?_, ?_, ?_⟩
    · simp [IsPlain]
    · simp [OneLine, TypeExpr.text]
    · simp [TypeExpr.text, List.infix_cons_iff]
    · simp [TypeExpr.text, List.infix_cons_iff]
  have hread {a : TypeExpr} (ha : OneLine a.text) : (sampleDocument a).Readable := by
    unfold OneLine at ha
    refine ⟨?_, ?_, ?_, ?_, ?_, ?_, ?_⟩
    all_goals simp [sampleDocument, OneLine, IsPlain, TypeExpr.text, ha, hparam]
  have hd := hread (show OneLine (TypeExpr.union [.number, .null]).text by
    simp [OneLine, TypeExpr.text, TypeExpr.texts])
  have he := hread (show OneLine (TypeExpr.named "number | null").text by
    simp [OneLine, TypeExpr.text])
  obtain ⟨hdecode, -, heq⟩ := outline_eq_of_render_eq hd he
  refine ⟨hd, he, ?_⟩
  rw [hdecode, heq (by decide +kernel)]

end SodiumDecl

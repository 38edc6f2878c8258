import SodiumDecl.Proofs.Gate
import SodiumDecl.Proofs.Outline

/-!
# Addresses of releases

`Cut mark text ps` says what the pieces of a text are: put together with the mark they are the text,
and the mark is in none of them. A mark that starts with a character it does not have again cannot
overlap itself, so there is one way to cut (`exists_cut`, `Cut.pieces_eq`), and substituting puts
the pieces together with the value instead.

A version has digits and dots alone, and at least one of them. So nothing in the address of a
release can be a placeholder again, neither inside a piece nor across the version between two
(`Cut.not_infix_intercalate`), and the length of the address tells the length of the version, and
then where it stands (`eq_of_intercalate_eq`). `archiveUrl_complete` is the result.
-/

namespace SodiumDecl

/-! ## Cutting at a mark -/

/-- A text is made up of pieces with a mark between them, and the mark is in no piece. -/
structure Cut (mark text : List Char) (ps : List (List Char)) : Prop where
  ne_nil : ps ≠ []
  joined : mark.intercalate ps = text
  free : ∀ p ∈ ps, ¬mark <:+: p

section Cutting

theorem intercalate_append {sep : List Char} {ps qs : List (List Char)} (hp : ps ≠ [])
    (hq : qs ≠ []) :
    sep.intercalate (ps ++ qs) = sep.intercalate ps ++ (sep ++ sep.intercalate qs) := by
  induction ps with
  | nil => exact absurd rfl hp
  | cons p ps ih =>
    cases ps with
    | nil => simp [List.intercalate_cons_of_ne_nil hq]
    | cons r rs => simp [List.intercalate_cons_cons, ← ih]

/-- A text without the mark is one piece. -/
theorem cut_singleton {mark text : List Char} (h : ¬mark <:+: text) : Cut mark text [text] where
  ne_nil := List.cons_ne_nil _ _
  joined := List.intercalate_singleton
  free := List.forall_mem_singleton.mpr h

variable {m : Char} {ms text value value' : List Char} {ps : List (List Char)}

/-- Every text can be cut: at any place where the mark stands, and then on both sides of it. -/
theorem exists_cut (m : Char) (ms text : List Char) : ∃ ps, Cut (m :: ms) text ps := by
  by_cases h : m :: ms <:+: text
  · obtain ⟨a, b, rfl⟩ := h
    have ha : a.length < (a ++ m :: ms ++ b).length := by simp
    have hb : b.length < (a ++ m :: ms ++ b).length := by simp; omega
    obtain ⟨ps, hps⟩ := exists_cut m ms a
    obtain ⟨qs, hqs⟩ := exists_cut m ms b
    refine ⟨ps ++ qs, by simp [hps.ne_nil], ?_, List.forall_mem_append.mpr ⟨hps.free, hqs.free⟩⟩
    rw [intercalate_append hps.ne_nil hqs.ne_nil, hps.joined, hqs.joined, List.append_assoc]
  · exact ⟨[text], cut_singleton h⟩
termination_by text.length

/-- There is one way to cut a text at a mark that cannot overlap itself. -/
theorem Cut.pieces_eq (hm : m ∉ ms) (h : Cut (m :: ms) text ps) :
    Text.pieces (m :: ms) 0 text = ps := by
  rw [← h.joined]
  refine pieces_intercalate (List.cons_ne_nil _ _) h.ne_nil fun p hp => ⟨?_, fun b => ?_⟩
  · exact avoids_of_not_infix (h.free p hp) (by simp)
  · exact avoids_of_not_infix (h.free p hp) (by simpa using hm)

theorem Avoids.absent {mark a : List Char} (h : Avoids mark a []) (hm : mark ≠ []) :
    ¬mark <:+: a := by
  rintro ⟨x, y, rfl⟩
  exact h x (mark ++ y) (List.append_assoc _ _ _) (by simp [hm]) (by simp)

/-- No mark comes up when other characters, at least one, are put between the pieces. -/
theorem Cut.not_infix_intercalate (h : Cut (m :: ms) text ps) (hne : value ≠ [])
    (hv : ∀ c ∈ value, c ∉ m :: ms) : ¬m :: ms <:+: value.intercalate ps := by
  obtain ⟨c, cs, rfl⟩ := List.exists_cons_of_ne_nil hne
  have hhead : c ∉ ms := fun hc => hv c List.mem_cons_self (List.mem_cons_of_mem _ hc)
  have hvalue : m ∉ c :: cs := fun hc => hv m hc List.mem_cons_self
  refine (avoids_intercalate (fun _ => avoids_of_not_mem hvalue) ?_ ?_).absent (by simp)
  · exact fun p hp b => avoids_of_not_infix (h.free p hp) (by simpa using hhead)
  · exact fun p hp => avoids_of_not_infix (h.free p hp) (by simp)

theorem Cut.two_le_length {mark : List Char} (h : Cut mark text ps) (ht : mark <:+: text) :
    2 ≤ ps.length := by
  match ps, h with
  | [], h => exact absurd rfl h.ne_nil
  | [p], h =>
    have hp : p = text := List.intercalate_singleton.symm.trans h.joined
    exact absurd ht (hp ▸ h.free p List.mem_cons_self)
  | _ :: _ :: _, _ => simp

theorem length_intercalate (value p : List Char) (ps : List (List Char)) :
    (value.intercalate (p :: ps)).length = (p :: ps).flatten.length + ps.length * value.length := by
  induction ps generalizing p with
  | nil => simp
  | cons q ps ih =>
    have hrest := ih q
    rw [List.intercalate_cons_cons]
    simp only [List.length_append, List.flatten_cons, List.length_cons, Nat.succ_mul] at hrest ⊢
    omega

/-- Between the same pieces, two at least, only the same value makes up the same text. -/
theorem eq_of_intercalate_eq (hl : 2 ≤ ps.length)
    (h : value.intercalate ps = value'.intercalate ps) : value = value' := by
  match ps, hl with
  | p :: q :: ps, _ =>
    have hlength : value.length = value'.length := by
      have hcount := congrArg List.length h
      rw [length_intercalate, length_intercalate] at hcount
      exact Nat.eq_of_mul_eq_mul_left (Nat.succ_pos ps.length) (Nat.add_left_cancel hcount)
    rw [List.intercalate_cons_cons, List.intercalate_cons_cons, List.append_assoc,
      List.append_assoc] at h
    exact (List.append_inj (List.append_cancel_left h) hlength).1

end Cutting

/-! ## Versions in addresses -/

namespace Settings

/-- The template of an address is cut into pieces at its placeholders. -/
def Pieces (s : Settings) (ps : List (List Char)) : Prop :=
  Cut placeholder.toList s.archiveTemplate.toList ps

/-- The settings with another template. -/
def withTemplate (s : Settings) (template : String) : Settings :=
  { s with archiveTemplate := template }

variable {s : Settings} {ps : List (List Char)} {v v' : String}

theorem exists_pieces (s : Settings) : ∃ ps, s.Pieces ps := exists_cut _ _ _

/-- A placeholder cannot overlap another one. -/
theorem Pieces.eq (h : s.Pieces ps) :
    Text.pieces placeholder.toList 0 s.archiveTemplate.toList = ps :=
  Cut.pieces_eq (by decide) h

/-- The address of a release is the pieces of the template with the version between them. -/
theorem toList_archiveUrl (h : s.Pieces ps) (v : String) :
    (s.archiveUrl v).toList = v.toList.intercalate ps := by
  rw [archiveUrl, Text.substitute, String.toList_ofList, h.eq]

/-- A template without a placeholder is an address. -/
theorem archiveUrl_of_not_infix (h : ¬placeholder.toList <:+: s.archiveTemplate.toList)
    (v : String) : s.archiveUrl v = s.archiveTemplate := by
  rw [← String.toList_inj, toList_archiveUrl (cut_singleton h), List.intercalate_singleton]

/-- No placeholder is left, and putting in a version makes no new one. -/
theorem not_infix_archiveUrl (s : Settings) (hv : Version.isWellFormed v = true) :
    ¬placeholder.toList <:+: (s.archiveUrl v).toList := by
  obtain ⟨ps, hps⟩ := s.exists_pieces
  rw [toList_archiveUrl hps]
  have hmark : ∀ c ∈ placeholder.toList, c.isDigit = false ∧ c ≠ '.' := by simp [placeholder]
  refine hps.not_infix_intercalate (Version.toList_ne_nil hv) fun c hc hm => ?_
  rcases Version.isDigit_or_dot hv hc with hdigit | hdot
  · exact absurd hdigit (by simp [(hmark c hm).1])
  · exact (hmark c hm).2 hdot

/-- An address is not changed any more. -/
theorem archiveUrl_withTemplate (s : Settings) (hv : Version.isWellFormed v = true) (v' : String) :
    (s.withTemplate (s.archiveUrl v)).archiveUrl v' = s.archiveUrl v := by
  have hfree := not_infix_archiveUrl s hv
  exact archiveUrl_of_not_infix (s := s.withTemplate (s.archiveUrl v)) hfree v'

/-- With a placeholder in the template, different versions have different addresses. -/
theorem archiveUrl_injective (h : placeholder.toList <:+: s.archiveTemplate.toList)
    (hurl : s.archiveUrl v = s.archiveUrl v') : v = v' := by
  obtain ⟨ps, hps⟩ := s.exists_pieces
  have hjoin : v.toList.intercalate ps = v'.toList.intercalate ps := by
    rw [← toList_archiveUrl hps v, ← toList_archiveUrl hps v', hurl]
  exact String.toList_inj.mp (eq_of_intercalate_eq (hps.two_le_length h) hjoin)

end Settings

/-- Every request is for the address of a well-formed version. -/
theorem url_of_request (p : Provider) (base : Option Path) (version : Option String) (w : World) :
    ∃ rs, ((resolve p base version).outcome w).2.requests = w.requests ++ rs ∧
      ∀ r ∈ rs, ∃ v, Version.isWellFormed v = true ∧ r.url = p.settings.archiveUrl v := by
  have hasks : AsksOnce p base version w := by
    cases base with
    | some path => exact asksOnce_local p path version w
    | none => exact asksOnce_remote p version w
  rcases hasks with ⟨r, hr, hrequests, -⟩ | ⟨-, hrequests, -⟩
  · refine ⟨[r], hrequests, List.forall_mem_singleton.mpr ?_⟩
    exact ⟨p.downloadVersion version, hr.passes.wellFormed, hr.url⟩
  · exact ⟨[], by rw [hrequests, List.append_nil], by simp⟩

/-- The template of an address is cut into pieces at its placeholders in one way, and the address of
a release is these pieces with the version between them. No placeholder is left in it, so nothing
changes when the same is done to it again, with whatever version. If there is a placeholder in the
template, different versions have different addresses. The versions are well-formed, as those that
runs request are. -/
theorem archiveUrl_complete (s : Settings) {v : String} (hv : Version.isWellFormed v = true) :
    ¬Settings.placeholder.toList <:+: (s.archiveUrl v).toList ∧
      (∃! ps, s.Pieces ps) ∧
      (∀ ps, s.Pieces ps → (s.archiveUrl v).toList = v.toList.intercalate ps) ∧
      (¬Settings.placeholder.toList <:+: s.archiveTemplate.toList →
        s.archiveUrl v = s.archiveTemplate) ∧
      (∀ v', (s.withTemplate (s.archiveUrl v)).archiveUrl v' = s.archiveUrl v) ∧
      (Settings.placeholder.toList <:+: s.archiveTemplate.toList →
        ∀ v', Version.isWellFormed v' = true → v ≠ v' → s.archiveUrl v ≠ s.archiveUrl v') ∧
      ∀ p base version w, p.settings = s →
        ∃ rs, ((resolve p base version).outcome w).2.requests = w.requests ++ rs ∧
          ∀ r ∈ rs, ∃ u, Version.isWellFormed u = true ∧ r.url = s.archiveUrl u := by
  refine ⟨Settings.not_infix_archiveUrl s hv, ?_, fun ps hps => Settings.toList_archiveUrl hps v,
    fun h => Settings.archiveUrl_of_not_infix h v, Settings.archiveUrl_withTemplate s hv,
    fun h v' _ hne hurl => hne (Settings.archiveUrl_injective h hurl), ?_⟩
  · obtain ⟨ps, hps⟩ := s.exists_pieces
    exact ⟨ps, hps, fun qs hqs => hqs.eq.symm.trans hps.eq⟩
  · rintro p base version w rfl
    exact url_of_request p base version w

/-- Settings with two placeholders in the template, one of them inside what is none. -/
def bracedSettings : Settings where
  archiveTemplate := "\x7b\x7bversion\x7dversion\x7d/\x7bversion\x7d"

theorem archiveUrl_complete_sample :
    Version.isWellFormed "1.0" = true ∧
      bracedSettings.archiveUrl "1.0" = "\x7b1.0version\x7d/1.0" ∧
      ¬Settings.placeholder.toList <:+: (bracedSettings.archiveUrl "1.0").toList ∧
      bracedSettings.archiveUrl "1.0" ≠ bracedSettings.archiveUrl "1.0.0" := by
  have hv : Version.isWellFormed "1.0" = true := by decide +kernel
  have htemplate : Settings.placeholder.toList <:+: bracedSettings.archiveTemplate.toList :=
    Text.contains_iff.mp (by decide +kernel)
  obtain ⟨hfree, -, -, -, -, hdistinct, -⟩ := archiveUrl_complete bracedSettings hv
  refine ⟨hv, by decide +kernel, hfree, hdistinct htemplate "1.0.0" ?_ ?_⟩
  · decide +kernel
  · decide

end SodiumDecl

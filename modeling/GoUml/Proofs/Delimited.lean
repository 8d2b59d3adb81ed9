import GoUml.Text.Basic

/-!
# Text that can be cut apart again

Pieces joined by separators between brackets can be told apart when no piece has a separator or an
unmatched closing bracket outside of its own brackets. A scan that counts open brackets finds the
end of such a piece whatever follows, so a piece needs no escaping and no length.
-/

namespace GoUml.Text

/-- What a character means to the scan. -/
inductive Mark where
  | opening
  | closing
  | separator
  | plain
  deriving DecidableEq

def markOf (c : Char) : Mark :=
  if c = '(' ∨ c = '[' ∨ c = '\x7b' then .opening
  else if c = ')' ∨ c = ']' ∨ c = '\x7d' then .closing
  else if c = ',' ∨ c = ';' then .separator
  else .plain

/-- What is left at the first separator or closing bracket outside of all brackets, when `depth`
brackets are open at the beginning. -/
def scan : (depth : Nat) → List Char → List Char
  | _, [] => []
  | depth, c :: rest =>
    match markOf c, depth with
    | .opening, depth => scan (depth + 1) rest
    | .closing, 0 => c :: rest
    | .closing, depth + 1 => scan depth rest
    | .separator, 0 => c :: rest
    | .separator, depth + 1 => scan (depth + 1) rest
    | .plain, depth => scan depth rest

section Steps

variable {c : Char} (depth : Nat) (rest : List Char)

theorem scan_opening (h : markOf c = .opening) : scan depth (c :: rest) = scan (depth + 1) rest := by
  rw [scan.eq_def]
  simp only [h]

theorem scan_closing (h : markOf c = .closing) : scan (depth + 1) (c :: rest) = scan depth rest := by
  rw [scan.eq_def]
  simp only [h]

theorem scan_separator (h : markOf c = .separator) :
    scan (depth + 1) (c :: rest) = scan (depth + 1) rest := by
  rw [scan.eq_def]
  simp only [h]

theorem scan_plain (h : markOf c = .plain) : scan depth (c :: rest) = scan depth rest := by
  rw [scan.eq_def]
  simp only [h]

theorem scan_stop (h : markOf c = .closing ∨ markOf c = .separator) :
    scan 0 (c :: rest) = c :: rest := by
  rw [scan.eq_def]
  rcases h with h | h
  · simp only [h]
  · simp only [h]

end Steps

def Closed (cs : List Char) : Prop := ∀ depth rest, scan depth (cs ++ rest) = scan depth rest

/-- The scan passes over the text inside of brackets. -/
def ClosedInside (cs : List Char) : Prop :=
  ∀ depth rest, scan (depth + 1) (cs ++ rest) = scan (depth + 1) rest

theorem closed_nil : Closed [] := fun _ _ => rfl

theorem Closed.append {cs ds : List Char} (hcs : Closed cs) (hds : Closed ds) :
    Closed (cs ++ ds) := by
  intro depth rest
  rw [List.append_assoc, hcs, hds]

theorem Closed.inside {cs : List Char} (h : Closed cs) : ClosedInside cs :=
  fun depth rest => h (depth + 1) rest

theorem ClosedInside.append {cs ds : List Char} (hcs : ClosedInside cs) (hds : ClosedInside ds) :
    ClosedInside (cs ++ ds) := by
  intro depth rest
  rw [List.append_assoc, hcs, hds]

theorem closed_of_plain {cs : List Char} (h : ∀ c ∈ cs, markOf c = .plain) : Closed cs := by
  induction cs with
  | nil => exact closed_nil
  | cons c cs ih =>
    intro depth rest
    rw [List.cons_append, scan_plain _ _ (h c List.mem_cons_self)]
    exact ih (fun d hd => h d (List.mem_cons_of_mem _ hd)) depth rest

theorem closedInside_separator {c : Char} (h : markOf c = .separator) : ClosedInside [c] :=
  fun depth rest => scan_separator depth rest h

theorem Closed.bracket {opening closing : Char} {cs rest : List Char}
    (hopening : markOf opening = .opening) (hclosing : markOf closing = .closing)
    (hcs : ClosedInside cs) (hrest : Closed rest) : Closed (opening :: (cs ++ closing :: rest)) := by
  intro depth tail
  rw [List.cons_append, scan_opening _ _ hopening, List.append_assoc, hcs, List.cons_append,
    scan_closing _ _ hclosing, hrest]

/-- The text is empty or begins where a scan ends. -/
def Ends (cs : List Char) : Prop :=
  ∀ c, cs.head? = some c → markOf c = .closing ∨ markOf c = .separator

theorem scan_of_ends {cs : List Char} (h : Ends cs) : scan 0 cs = cs := by
  cases cs with
  | nil => rfl
  | cons c rest => exact scan_stop rest (h c rfl)

theorem Closed.append_inj {cs ds r s : List Char} (hcs : Closed cs) (hds : Closed ds)
    (hr : Ends r) (hs : Ends s) (h : cs ++ r = ds ++ s) : cs = ds ∧ r = s := by
  have hrest : r = s := by
    calc
      r = scan 0 (cs ++ r) := by rw [hcs, scan_of_ends hr]
      _ = scan 0 (ds ++ s) := by rw [h]
      _ = s := by rw [hds, scan_of_ends hs]
  subst hrest
  exact ⟨List.append_cancel_right h, rfl⟩

theorem Closed.head_ne_closing {c : Char} {cs : List Char} (h : Closed (c :: cs)) :
    markOf c ≠ .closing := by
  intro hclosing
  have hscan := h 0 []
  rw [List.append_nil, scan_stop cs (.inl hclosing)] at hscan
  cases hscan

/-! ### Joined pieces -/

/-- A text that can stand between separators. -/
structure Piece (text : String) : Prop where
  closed : Closed text.toList
  nonempty : text.toList ≠ []

def Separates (separator : String) : Prop :=
  ∃ c cs, separator.toList = c :: cs ∧ markOf c = .separator

def tails (separator : String) (pieces : List String) : List Char :=
  pieces.flatMap fun piece => separator.toList ++ piece.toList

theorem tails_cons (separator piece : String) (pieces : List String) :
    tails separator (piece :: pieces) =
      separator.toList ++ (piece.toList ++ tails separator pieces) := by
  rw [tails, List.flatMap_cons, List.append_assoc, tails]

theorem toList_joinWith_cons (separator piece : String) (pieces : List String) :
    (joinWith separator (piece :: pieces)).toList = piece.toList ++ tails separator pieces := by
  induction pieces generalizing piece with
  | nil => rw [joinWith, tails, List.flatMap_nil, List.append_nil]
  | cons next rest ih =>
    have hjoin : joinWith separator (piece :: next :: rest) =
        piece ++ separator ++ joinWith separator (next :: rest) := rfl
    rw [hjoin, String.toList_append, String.toList_append, ih, tails_cons, List.append_assoc]

theorem ends_tails {separator : String} (hseparator : Separates separator) (pieces : List String)
    {r : List Char} (hr : Ends r) : Ends (tails separator pieces ++ r) := by
  cases pieces with
  | nil => exact hr
  | cons piece rest =>
    obtain ⟨c, cs, htoList, hc⟩ := hseparator
    rw [tails_cons, htoList]
    rintro d ⟨⟩
    exact .inr hc

def Closes (cs : List Char) : Prop := ∃ c rest, cs = c :: rest ∧ markOf c = .closing

theorem closes_cons {c : Char} (h : markOf c = .closing) (rest : List Char) : Closes (c :: rest) :=
  ⟨c, rest, rfl, h⟩

theorem Closes.ends {cs : List Char} (h : Closes cs) : Ends cs := by
  obtain ⟨c, rest, rfl, hc⟩ := h
  rintro d ⟨⟩
  exact .inl hc

theorem Closes.ne_separator_append {separator : String} (hseparator : Separates separator)
    {r s : List Char} (hr : Closes r) : r ≠ separator.toList ++ s := by
  obtain ⟨c, rest, rfl, hc⟩ := hr
  obtain ⟨d, ds, htoList, hd⟩ := hseparator
  rw [htoList]
  rintro ⟨⟩
  rw [hc] at hd
  cases hd

theorem tails_append_inj {separator : String} (hseparator : Separates separator)
    {xs ys : List String} (hxs : ∀ x ∈ xs, Piece x) (hys : ∀ y ∈ ys, Piece y) {r s : List Char}
    (hr : Closes r) (hs : Closes s) (h : tails separator xs ++ r = tails separator ys ++ s) :
    xs = ys ∧ r = s := by
  induction xs generalizing ys with
  | nil =>
    cases ys with
    | nil => exact ⟨rfl, h⟩
    | cons y ys =>
      rw [tails_cons, List.append_assoc] at h
      exact absurd h (hr.ne_separator_append hseparator)
  | cons x xs ih =>
    cases ys with
    | nil =>
      rw [tails_cons, List.append_assoc] at h
      exact absurd h.symm (hs.ne_separator_append hseparator)
    | cons y ys =>
      rw [tails_cons, tails_cons, List.append_assoc, List.append_assoc, List.append_assoc,
        List.append_assoc] at h
      obtain ⟨hhead, htail⟩ := (hxs x List.mem_cons_self).closed.append_inj
        (hys y List.mem_cons_self).closed (ends_tails hseparator xs hr.ends)
        (ends_tails hseparator ys hs.ends) (List.append_cancel_left h)
      obtain ⟨hrest, hend⟩ := ih (fun x hx => hxs x (List.mem_cons_of_mem _ hx))
        (fun y hy => hys y (List.mem_cons_of_mem _ hy)) htail
      exact ⟨by rw [String.toList_inj.1 hhead, hrest], hend⟩

/-- Joined pieces in front of a closing bracket can be told apart. -/
theorem joinWith_append_inj {separator : String} (hseparator : Separates separator)
    {xs ys : List String} (hxs : ∀ x ∈ xs, Piece x) (hys : ∀ y ∈ ys, Piece y) {r s : List Char}
    (hr : Closes r) (hs : Closes s)
    (h : (joinWith separator xs).toList ++ r = (joinWith separator ys).toList ++ s) :
    xs = ys ∧ r = s := by
  have hne : ∀ {z : String} {zs : List String} {r s : List Char}, Piece z → Closes r →
      r ≠ (joinWith separator (z :: zs)).toList ++ s := by
    rintro z zs r s hz ⟨c, rest, rfl, hc⟩ heq
    rw [toList_joinWith_cons, List.append_assoc] at heq
    cases hchars : z.toList with
    | nil => exact hz.nonempty hchars
    | cons d ds =>
      rw [hchars, List.cons_append, List.cons.injEq] at heq
      exact (hchars ▸ hz.closed).head_ne_closing (heq.1 ▸ hc)
  cases xs with
  | nil =>
    cases ys with
    | nil => exact ⟨rfl, h⟩
    | cons y ys => exact absurd h (hne (hys y List.mem_cons_self) hr)
  | cons x xs =>
    cases ys with
    | nil => exact absurd h.symm (hne (hxs x List.mem_cons_self) hs)
    | cons y ys =>
      have htails : tails separator (x :: xs) ++ r = tails separator (y :: ys) ++ s := by
        rw [tails_cons, tails_cons, ← toList_joinWith_cons, ← toList_joinWith_cons,
          List.append_assoc, List.append_assoc, h]
      exact tails_append_inj hseparator hxs hys hr hs htails

theorem closedInside_joinWith {separator : String} (hseparator : ClosedInside separator.toList)
    {xs : List String} (hxs : ∀ x ∈ xs, Piece x) : ClosedInside (joinWith separator xs).toList := by
  cases xs with
  | nil => exact closed_nil.inside
  | cons x xs =>
    have htails : ClosedInside (tails separator xs) := by
      induction xs with
      | nil => exact closed_nil.inside
      | cons y ys ih =>
        rw [tails_cons]
        have hy : Piece y := hxs y (List.mem_cons_of_mem _ List.mem_cons_self)
        refine hseparator.append (hy.closed.inside.append (ih fun z hz => ?_))
        rcases List.mem_cons.1 hz with rfl | hz
        · exact hxs z List.mem_cons_self
        · exact hxs z (List.mem_cons_of_mem _ (List.mem_cons_of_mem _ hz))
    rw [toList_joinWith_cons]
    exact (hxs x List.mem_cons_self).closed.inside.append htails

end GoUml.Text

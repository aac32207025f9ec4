import CodaDb.Lib.Machine
import CodaDb.Resultset.RangeFor
import CodaDb.Resultset.Rows

/-!
# Iterators over one resultset

The iterators of a resultset count their positions, and all of them, with `size` and `empty`, move
the one driver behind it. An iterator denotes the row of its position as long as no other moves the
driver away from it, or over the row that it reads.
-/

namespace CodaDb

universe u v w

namespace ResultsetIterator

variable {σ : Type u} {ρ : Type v} {ε : Type w}

/-- `operator+=` -/
def advance (C : Cursor σ ρ ε) :
    Nat → ResultsetIterator ρ → σ → Option (σ × Except ε (ResultsetIterator ρ))
  | 0, it, s => some (s, .ok it)
  | n + 1, it, s =>
    match it.increment C s with
    | none => none
    | some (s', .error e) => some (s', .error e)
    | some (s', .ok it') => advance C n it' s'

variable {C : Cursor σ ρ ε}

lemma increment_end (s : σ) : (.end : ResultsetIterator ρ).increment C s = some (s, .ok .end) := rfl

lemma advance_end (n : Nat) (s : σ) :
    (.end : ResultsetIterator ρ).advance C n s = some (s, .ok .end) := by
  induction n with
  | zero => rfl
  | succ n ih =>
    rw [advance, increment_end]
    exact ih

end ResultsetIterator

namespace Resultset

variable {σ : Type u} {ρ : Type v} {ε : Type w}

/-- `std::distance` to the end; `none` if `pos_` overflows or the fuel does not suffice. -/
def distance (C : Cursor σ ρ ε) : Nat → ResultsetIterator ρ → σ → Option (σ × Except ε Nat)
  | 0, _, _ => none
  | fuel + 1, it, s =>
    if it.pos_ = -1 then some (s, .ok 0)
    else
      match it.increment C s with
      | none => none
      | some (s', .error e) => some (s', .error e)
      | some (s', .ok it') => (distance C fuel it' s').map fun r => (r.1, r.2.map (· + 1))

/-- `resultset::size` -/
def size (C : Cursor σ ρ ε) (fuel : Nat) (s : σ) : Option (σ × Except ε Nat) :=
  match begin C s with
  | (s', .error e) => some (s', .error e)
  | (s', .ok it) => distance C fuel it s'

/-- `resultset::empty` -/
def empty (C : Cursor σ ρ ε) (s : σ) : σ × Except ε Bool :=
  match begin C s with
  | (s', .error e) => (s', .error e)
  | (s', .ok it) => (s', .ok (it.pos_ = -1))

end Resultset

abbrev RowIterator := ResultsetIterator RowImpl

/-- What a program does with a resultset and its iterators, which it has in the order in which they
were made. -/
inductive IteratorOp where
  | begin
  | copy (h : Nat)
  | increment (h : Nat)
  | postIncrement (h : Nat)
  | plus (h : Nat) (n : Int)
  | plusAssign (h : Nat) (n : Int)
  | size
  | empty
  | drop (h : Nat)
deriving DecidableEq, Repr

/-- A resultset with its iterators, `none` for one that is no more. -/
structure Iteration where
  results : Results
  iterators : List (Option RowIterator) := []

namespace Iteration

def live (s : Iteration) (h : Nat) : Option RowIterator :=
  (s.iterators[h]?).join

/-- A new iterator. -/
def push (s : Iteration) (it : RowIterator) : Iteration :=
  { s with iterators := s.iterators ++ [some it] }

/-- The iterator after a move, which may throw. -/
def store (s : Iteration) (h : Nat) :
    Option (Results × Except DbException RowIterator) → Option Iteration
  | some (rs, .ok it) => some { results := rs, iterators := s.iterators.set h (some it) }
  | some (_, .error _) | none => none

/-- A step of an iterator, if it is there. -/
def withIterator (s : Iteration) (h : Nat) (f : RowIterator → Option Iteration) :
    Option Iteration :=
  match s.live h with
  | none => some s
  | some it => f it

/-- One step; `none` if it throws, or if `pos_` overflows. -/
def step (s : Iteration) : IteratorOp → Option Iteration
  | .begin =>
    match Resultset.begin Results.cursor s.results with
    | (rs, .ok it) => some (push { s with results := rs } it)
    | (_, .error _) => none
  | .copy h => s.withIterator h fun it => some (s.push it)
  | .increment h => s.withIterator h fun it =>
    s.store h (it.increment Results.cursor s.results)
  | .postIncrement h => s.withIterator h fun it =>
    (s.push it).store h (it.increment Results.cursor s.results)
  | .plus h n => s.withIterator h fun it =>
    (s.push it).store s.iterators.length (it.advance Results.cursor n.toNat s.results)
  | .plusAssign h n => s.withIterator h fun it =>
    s.store h (it.advance Results.cursor n.toNat s.results)
  | .size =>
    match Resultset.size Results.cursor (s.results.impl_.outcome.rows.length + 2) s.results with
    | some (rs, .ok _) => some { s with results := rs }
    | some (_, .error _) | none => none
  | .empty =>
    match Resultset.empty Results.cursor s.results with
    | (rs, .ok _) => some { s with results := rs }
    | (_, .error _) => none
  | .drop h => some { s with iterators := s.iterators.set h none }

end Iteration

/-- A step of a program, with the states before and after it. -/
structure IteratorEvent where
  before : Iteration
  op : IteratorOp
  after : Option Iteration

/-- A program with a resultset; it emits its steps. -/
def iteratorMachine : Machine (Option Iteration) IteratorOp IteratorEvent where
  step
    | none, _ => (none, [])
    | some s, op => (s.step op, [{ before := s, op := op, after := s.step op }])

namespace Iteration

/-- The row that an iterator denotes. -/
def shows (s : Iteration) (it : RowIterator) : Option RowTexts :=
  it.value_.bind s.results.read

/-- The row that an iterator denotes after so many increments. -/
def yields (rs : Results) (it : RowIterator) (n : Nat) : Option (Option RowTexts) :=
  match it.advance Results.cursor n rs with
  | some (rs', .ok it') => some (it'.value_.bind rs'.read)
  | some (_, .error _) | none => none

/-- The iterators denote the rows of their positions. -/
def Denotes (rows : List RowTexts) (s : Iteration) : Prop :=
  ∀ h it, s.live h = some it → ∀ k : Nat, it.pos_ = k →
    ∃ row, rows[k]? = some row ∧ s.shows it = some row

/-- Equal iterators denote the same row. -/
def EqualsAgree (s : Iteration) : Prop :=
  ∀ h it h' it', s.live h = some it → s.live h' = some it' → it.pos_ = it'.pos_ →
    s.shows it = s.shows it'

/-- All iterators are at the end. -/
def Idle (s : Iteration) : Prop :=
  ∀ h it, s.live h = some it → it.pos_ = -1

/-- All iterators are at the end or at the first row. -/
def AtFirst (s : Iteration) : Prop :=
  ∀ h it, s.live h = some it → it.pos_ = -1 ∨ it.pos_ = 0

/-- The driver is at the row of this iterator, and its position can be increased so often, or the
driver has no more rows. -/
def Ready (rows : List RowTexts) (rs : Results) (it : RowIterator) (n : Nat) : Prop :=
  rs.place = it.pos_ + 1 ∧ (it.pos_ + n < 2 ^ 31 ∨ rows.length ≤ 2 ^ 31) ∨ rows.length ≤ rs.place

/-- An iterator shows the same row when another one moves the driver. -/
def Bystander (rs : Results) (it : RowIterator) : Prop :=
  it.pos_ = -1 ∨ rs.detached = true ∧ ∀ row, it.value_ = some row → rs.overwrites row = false

/-- An iterator can be moved so often, where there are others. -/
def Movable (rows : List RowTexts) (s : Iteration) (h n : Nat) : Prop :=
  ∀ it, s.live h = some it → n = 0 ∨ it.pos_ = -1 ∨
    Ready rows s.results it n ∧
      ∀ h' it', h' ≠ h → s.live h' = some it' → Bystander s.results it'

/-- The steps that lead no iterator astray. -/
def Safe (rows : List RowTexts) (s : Iteration) : IteratorOp → Prop
  | .begin => s.results.detached = true ∨ s.AtFirst
  | .copy _ | .drop _ => True
  | .increment h => s.Movable rows h 1
  | .postIncrement h => ∀ it, s.live h = some it → (s.push it).Movable rows h 1
  | .plus h n => ∀ it, s.live h = some it → (s.push it).Movable rows s.iterators.length n.toNat
  | .plusAssign h n => s.Movable rows h n.toNat
  | .size =>
    rows.length ≤ 2 ^ 31 ∧
      (s.Idle ∨ s.results.detached = true ∧ rows.length ≤ s.results.place)
  | .empty => s.Idle ∨ s.results.place = 1 ∨ rows.length ≤ 1

end Iteration

/-- A step after which the iterators denote the rows of their positions; `size` and `empty` do not
change what they denote after any number of increments. -/
def IteratorEvent.Sound (rows : List RowTexts) (e : IteratorEvent) : Prop :=
  ∃ s', e.after = some s' ∧ s'.Denotes rows ∧ s'.EqualsAgree ∧
    (e.op = .size ∨ e.op = .empty → ∀ h it, e.before.live h = some it →
      ∀ n, Iteration.yields s'.results it n = Iteration.yields e.before.results it n)

/-! ### One iterator -/

namespace Iteration

/-- An iterator that denotes the row of its position, which the driver has passed. -/
def Stands (rows : List RowTexts) (rs : Results) (it : RowIterator) : Prop :=
  it = .end ∨ ∃ (k n : Nat) (row : RowImpl), it = { pos_ := k, value_ := some row } ∧
    k < rows.length ∧ rs.Fits rows row k ∧ 0 < n ∧ rs.Passed rows n ∧
      (rs.detached = false → n = k + 1)

/-- A row of a detached resultset has been passed. -/
def Placed (rows : List RowTexts) (rs : Results) : Prop :=
  rs.detached = true → ∃ n, 0 < n ∧ rs.Passed rows n

variable {rows : List RowTexts} {rs rs' : Results} {it it' : RowIterator} {k n : Nat}
  {C : RowImpl → Prop}

lemma Stands.reads (hit : Stands rows rs it) (hrs : rs.Reports rows) (hk : it.pos_ = k) :
    ∃ row, rows[k]? = some row ∧ it.value_.bind rs.read = some row := by
  obtain rfl | ⟨k', n, row, rfl, hlt, hfits, -, hpassed, hplace⟩ := hit
  · cases hk
  · obtain rfl : k' = k := Int.ofNat.inj hk
    have hread := hfits.read hrs fun hdetached => hplace hdetached ▸ hpassed
    exact ⟨rows[k'], List.getElem?_eq_getElem hlt, hread.trans (List.getElem?_eq_getElem hlt)⟩

/-- An iterator at a row stays there, if the move keeps what the row shows. -/
lemma Stands.keep (hit : Stands rows rs it) (hkeeps : rs.Keeps rows C rs')
    (hC : ∀ row, it.value_ = some row → C row)
    (hpassed : ∀ k : Nat, it.pos_ = k → ∃ n, 0 < n ∧ rs'.Passed rows n ∧
      (rs'.detached = false → n = k + 1)) : Stands rows rs' it := by
  obtain rfl | ⟨k, n, row, rfl, hlt, hfits, -, -, -⟩ := hit
  · exact .inl rfl
  · obtain ⟨n', hpos, hpassed', hplace⟩ := hpassed k rfl
    exact .inr ⟨k, n', row, rfl, hlt, (hkeeps.fits row k hfits (hC row rfl)).1, hpos, hpassed',
      hplace⟩

lemma increment_spec (hrs : rs.Reports rows) (hit : Stands rows rs it)
    (hready : it.pos_ = -1 ∨ Ready rows rs it (n + 1)) :
    ∃ rs' it', it.increment Results.cursor rs = some (rs', .ok it') ∧
      rs.Keeps rows rs.Untouched rs' ∧ Stands rows rs' it' ∧
      (it'.pos_ = -1 ∨ Ready rows rs' it' n) ∧ (it.pos_ ≠ -1 → Placed rows rs') := by
  obtain rfl | ⟨k, p, row, rfl, hlt, hfits, hpos, hpassed, hplace⟩ := hit
  · exact ⟨rs, .end, rfl, .refl hrs, .inl rfl, .inl rfl, fun h => absurd rfl h⟩
  · have hk : (k : Int) ≠ -1 := by omega
    replace hready := hready.resolve_left hk
    rw [Ready, hpassed.place] at hready
    by_cases hp : p < rows.length
    · obtain ⟨rs', hnext, hpassed', hfits', hkeeps⟩ := Results.next_some hrs hpassed hp
      obtain ⟨haligned, hmax⟩ := hready.resolve_right (Nat.not_le_of_lt hp)
      dsimp only at haligned hmax
      have hmax' : (k : Int) ≠ 2 ^ 31 - 1 := by omega
      obtain rfl : p = k + 1 := by omega
      refine ⟨rs', { pos_ := (k : Int) + 1, value_ := some rs'.currentRow }, ?_, hkeeps,
        .inr ⟨k + 1, k + 2, rs'.currentRow, rfl, hp, hfits', Nat.succ_pos _, hpassed',
          fun _ => rfl⟩, .inr (.inl ?_), fun _ _ => ⟨_, Nat.succ_pos _, hpassed'⟩⟩
      · simp only [ResultsetIterator.increment, if_neg hk, Results.cursor, hnext, if_neg hmax']
      · rw [hpassed'.place]
        dsimp only
        omega
    · obtain ⟨rs', hnext, hkeeps, hdone⟩ := Results.next_none hrs hpassed (Nat.le_of_not_lt hp)
      refine ⟨rs', .end, ?_, hkeeps, .inl rfl, .inl rfl, fun _ hdetached => ?_⟩
      · simp only [ResultsetIterator.increment, if_neg hk, Results.cursor, hnext]
      · rw [hkeeps.detached] at hdetached
        obtain ⟨n', hn', hpassed'⟩ := hdone hdetached
        exact ⟨n', by omega, hpassed'⟩

lemma advance_spec (hrs : rs.Reports rows) (hit : Stands rows rs it)
    (hready : n = 0 ∨ it.pos_ = -1 ∨ Ready rows rs it n) :
    ∃ rs' it', it.advance Results.cursor n rs = some (rs', .ok it') ∧
      rs.Keeps rows rs.Untouched rs' ∧ Stands rows rs' it' ∧
      (Placed rows rs → Placed rows rs') := by
  induction n generalizing rs it with
  | zero => exact ⟨rs, it, rfl, .refl hrs, hit, id⟩
  | succ n ih =>
    obtain ⟨rs₁, it₁, hincrement, hkeeps₁, hit₁, hready₁, hplaced₁⟩ :=
      increment_spec hrs hit (hready.resolve_left (Nat.succ_ne_zero n))
    obtain ⟨rs', it', hadvance, hkeeps', hit', hplaced'⟩ :=
      ih hkeeps₁.reports hit₁ (.inr hready₁)
    refine ⟨rs', it', ?_, hkeeps₁.trans hkeeps', hit', fun hplaced => ?_⟩
    · simp only [ResultsetIterator.advance, hincrement, hadvance]
    · by_cases hend : it.pos_ = -1
      · have hsame : rs₁ = rs := by
          rw [ResultsetIterator.increment, if_pos hend] at hincrement
          exact (Prod.mk.inj (Option.some.inj hincrement)).1.symm
        exact hplaced' (hsame ▸ hplaced)
      · exact hplaced' (hplaced₁ hend)

lemma begin_spec (hrs : rs.Reports rows) :
    ∃ rs' it', Resultset.begin Results.cursor rs = (rs', .ok it') ∧
      rs.Keeps rows (fun _ => True) rs' ∧ Stands rows rs' it' ∧
      (rows = [] ∧ it' = .end ∨ 0 < rows.length ∧ rs'.Passed rows 1 ∧
        it' = { pos_ := (0 : Nat), value_ := some rs'.currentRow }) := by
  obtain ⟨rs₁, hreset, hpassed, hkeeps⟩ := Results.reset_spec hrs
  by_cases hrows : 0 < rows.length
  · obtain ⟨rs', hnext, hpassed', hfits, hkeeps'⟩ :=
      Results.next_some hkeeps.reports hpassed hrows
    refine ⟨rs', { pos_ := (0 : Nat), value_ := some rs'.currentRow }, ?_, hkeeps.trans hkeeps',
      .inr ⟨0, 1, _, rfl, hrows, hfits, Nat.one_pos, hpassed', fun _ => rfl⟩,
      .inr ⟨hrows, hpassed', rfl⟩⟩
    simp only [Resultset.begin, Results.cursor, hreset, hnext]
    rfl
  · obtain ⟨rs', hnext, hkeeps', -⟩ :=
      Results.next_none hkeeps.reports hpassed (Nat.le_of_not_lt hrows)
    refine ⟨rs', .end, ?_, hkeeps.trans hkeeps', .inl rfl,
      .inl ⟨List.eq_nil_of_length_eq_zero (Nat.eq_zero_of_not_pos hrows), rfl⟩⟩
    simp only [Resultset.begin, Results.cursor, hreset, hnext]

/-- From the row `k` on a count goes to the end. -/
lemma distance_spec {fuel : Nat} (hrs : rs.Reports rows) (hpassed : rs.Passed rows (k + 1))
    (hit : it.pos_ = k) (hk : k < rows.length) (hrows : rows.length ≤ 2 ^ 31)
    (hfuel : rows.length + 1 ≤ k + fuel) :
    ∃ rs', Resultset.distance Results.cursor fuel it rs = some (rs', .ok (rows.length - k)) ∧
      rs.Keeps rows rs.Untouched rs' ∧
      (rs.detached = true → ∃ n, rows.length ≤ n ∧ rs'.Passed rows n) := by
  induction fuel generalizing k rs it with
  | zero => omega
  | succ fuel ih =>
    have hpos : it.pos_ ≠ -1 := by omega
    simp only [Resultset.distance, if_neg hpos, ResultsetIterator.increment]
    by_cases hnext : k + 1 < rows.length
    · obtain ⟨rs₁, hnext', hpassed₁, -, hkeeps₁⟩ := Results.next_some hrs hpassed hnext
      have hit₁ : ({ pos_ := it.pos_ + 1, value_ := some rs₁.currentRow } : RowIterator).pos_ =
          (k + 1 : Nat) := congrArg (· + 1) hit
      obtain ⟨rs', hdistance, hkeeps', hdone⟩ :=
        ih hkeeps₁.reports hpassed₁ hit₁ hnext (by omega)
      have hmax : it.pos_ ≠ 2 ^ 31 - 1 := by omega
      refine ⟨rs', ?_, hkeeps₁.trans hkeeps', fun h => hdone (hkeeps₁.detached.trans h)⟩
      have hcount : rows.length - (k + 1) + 1 = rows.length - k := by omega
      simp only [Results.cursor, hnext', if_neg hmax]
      simp only [Results.cursor] at hdistance
      rw [hdistance, Option.map_some, Except.map, hcount]
    · obtain ⟨rs', hnext', hkeeps, hdone⟩ :=
        Results.next_none hrs hpassed (Nat.le_of_not_lt hnext)
      obtain ⟨fuel, rfl⟩ : ∃ fuel', fuel = fuel' + 1 := ⟨fuel - 1, by omega⟩
      have hcount : rows.length - k = 1 := by omega
      refine ⟨rs', ?_, hkeeps, hdone⟩
      simp only [Results.cursor, hnext', hcount]
      rfl

/-! ### What later increments yield -/

lemma yields_zero (rs : Results) (it : RowIterator) :
    yields rs it 0 = some (it.value_.bind rs.read) := rfl

lemma yields_succ (h : it.increment Results.cursor rs = some (rs', .ok it')) (n : Nat) :
    yields rs it (n + 1) = yields rs' it' n := by
  simp only [yields, ResultsetIterator.advance, h]

lemma yields_end (rs : Results) (n : Nat) : yields rs .end n = some none := by
  rw [yields, ResultsetIterator.advance_end]
  rfl

/-- After the last row an increment goes to the end. -/
lemma yields_done (hrs : rs.Reports rows) (hpassed : rs.Passed rows k) (hk : rows.length ≤ k)
    (hit : it.pos_ ≠ -1) (n : Nat) : yields rs it (n + 1) = some none := by
  obtain ⟨rs', hnext, -, -⟩ := Results.next_none hrs hpassed hk
  have hincrement : it.increment Results.cursor rs = some (rs', .ok .end) := by
    simp only [ResultsetIterator.increment, if_neg hit, Results.cursor, hnext]
  rw [yields_succ hincrement, yields_end]

/-- What an increment yields depends on the place of the driver alone. -/
lemma yields_congr (hrs : rs.Reports rows) (hrs' : rs'.Reports rows) (hpassed : rs.Passed rows k)
    (hpassed' : rs'.Passed rows k) (hpos : 0 ≤ it.pos_) (hsame : it.pos_ = it'.pos_) (n : Nat) :
    yields rs it (n + 1) = yields rs' it' (n + 1) := by
  induction n generalizing rs rs' it it' k with
  | zero => ?_
  | succ n ih => ?_
  all_goals
    have hit : it.pos_ ≠ -1 := by omega
    have hit' : it'.pos_ ≠ -1 := by omega
    by_cases hk : k < rows.length
    case neg =>
      have hge := Nat.le_of_not_lt hk
      rw [yields_done hrs hpassed hge hit, yields_done hrs' hpassed' hge hit']
    obtain ⟨rs₁, hnext, hpassed₁, hfits, hkeeps⟩ := Results.next_some hrs hpassed hk
    obtain ⟨rs₁', hnext', hpassed₁', hfits', hkeeps'⟩ := Results.next_some hrs' hpassed' hk
    by_cases hmax : it.pos_ = 2 ^ 31 - 1
    case pos =>
      have hmax' : it'.pos_ = 2 ^ 31 - 1 := hsame ▸ hmax
      simp only [yields, ResultsetIterator.advance, ResultsetIterator.increment, if_neg hit,
        if_neg hit', Results.cursor, hnext, hnext', if_pos hmax, if_pos hmax']
    have hmax' : it'.pos_ ≠ 2 ^ 31 - 1 := hsame ▸ hmax
    have hincrement : it.increment Results.cursor rs =
        some (rs₁, .ok { pos_ := it.pos_ + 1, value_ := some rs₁.currentRow }) := by
      simp only [ResultsetIterator.increment, if_neg hit, Results.cursor, hnext, if_neg hmax]
    have hincrement' : it'.increment Results.cursor rs' =
        some (rs₁', .ok { pos_ := it'.pos_ + 1, value_ := some rs₁'.currentRow }) := by
      simp only [ResultsetIterator.increment, if_neg hit', Results.cursor, hnext', if_neg hmax']
    rw [yields_succ hincrement, yields_succ hincrement']
  · have hread := hfits.read hkeeps.reports fun _ => hpassed₁
    have hread' := hfits'.read hkeeps'.reports fun _ => hpassed₁'
    exact congrArg some (hread.trans hread'.symm)
  · refine ih hkeeps.reports hkeeps'.reports hpassed₁ hpassed₁' ?_ ?_
    · dsimp only
      omega
    · exact congrArg (· + 1) hsame

/-- Increments yield the same rows from two places that are the same, or that no row follows. -/
lemma yields_kept (hrs : rs.Reports rows) (hrs' : rs'.Reports rows) (hit : Stands rows rs it)
    (hit' : Stands rows rs' it)
    (hplace : it.pos_ ≠ -1 → ∃ p p', rs.Passed rows p ∧ rs'.Passed rows p' ∧
      (p = p' ∨ rows.length ≤ p ∧ rows.length ≤ p')) (n : Nat) :
    yields rs' it n = yields rs it n := by
  by_cases hend : it.pos_ = -1
  · obtain rfl | ⟨k, p, row, rfl, -⟩ := hit
    · rw [yields_end, yields_end]
    · cases hend
  obtain ⟨k, hk⟩ : ∃ k : Nat, it.pos_ = k := by
    obtain rfl | ⟨k, p, row, rfl, -⟩ := hit
    · exact absurd rfl hend
    · exact ⟨k, rfl⟩
  cases n with
  | zero =>
    obtain ⟨row, hrow, hread⟩ := hit.reads hrs hk
    obtain ⟨row', hrow', hread'⟩ := hit'.reads hrs' hk
    have hsame : row' = row := Option.some.inj (hrow'.symm.trans hrow)
    rw [yields_zero, yields_zero, hread, hread', hsame]
  | succ n =>
    obtain ⟨p, p', hpassed, hpassed', hsame | ⟨hdone, hdone'⟩⟩ := hplace hend
    · subst hsame
      exact yields_congr hrs' hrs hpassed' hpassed (by omega) rfl n
    · rw [yields_done hrs hpassed hdone hend, yields_done hrs' hpassed' hdone' hend]

/-! ### All iterators -/

/-- The resultset reports its rows and all iterators stand. -/
structure Good (rows : List RowTexts) (s : Iteration) : Prop where
  reports : s.results.Reports rows
  stands : ∀ h it, s.live h = some it → Stands rows s.results it

variable {s s' : Iteration} {h : Nat}

lemma Good.denotes (hs : Good rows s) : s.Denotes rows :=
  fun h it hit _ hk => (hs.stands h it hit).reads hs.reports hk

lemma Good.equalsAgree (hs : Good rows s) : s.EqualsAgree := by
  intro h it h' it' hit hit' hsame
  obtain rfl | ⟨k, n, row, rfl, -⟩ := hs.stands h it hit
  · obtain rfl | ⟨k', n', row', rfl, -⟩ := hs.stands h' it' hit'
    · rfl
    · cases hsame
  · obtain ⟨row₁, hrow₁, hread₁⟩ := hs.denotes h _ hit k rfl
    obtain ⟨row₂, hrow₂, hread₂⟩ := hs.denotes h' it' hit' k hsame.symm
    rw [hread₁, hread₂, ← hrow₁, ← hrow₂]

lemma live_push (s : Iteration) (it : RowIterator) (h : Nat) :
    (s.push it).live h = if h = s.iterators.length then some it else s.live h := by
  simp only [live, push, List.getElem?_append]
  split
  · rename_i hlt
    rw [if_neg (Nat.ne_of_lt hlt)]
  · rename_i hge
    by_cases heq : h = s.iterators.length
    · subst heq
      simp
    · have hlt : s.iterators.length < h := by omega
      rw [if_neg heq, List.getElem?_eq_none (by simp; omega),
        List.getElem?_eq_none (Nat.le_of_lt hlt)]

lemma live_set {rs : Results} {x : Option RowIterator} {h' : Nat}
    (hit : live { results := rs, iterators := s.iterators.set h x } h' = some it) :
    h' = h ∧ x = some it ∨ h' ≠ h ∧ s.live h' = some it := by
  simp only [live] at hit ⊢
  by_cases heq : h' = h
  · subst heq
    by_cases hlt : h' < s.iterators.length
    · rw [List.getElem?_set_self hlt, Option.join_some] at hit
      exact .inl ⟨rfl, hit⟩
    · rw [List.getElem?_eq_none (by rw [List.length_set]; omega)] at hit
      cases hit
  · rw [List.getElem?_set_ne (Ne.symm heq)] at hit
    exact .inr ⟨heq, hit⟩

lemma Good.push (hs : Good rows s) (hit : Stands rows s.results it) : Good rows (s.push it) where
  reports := hs.reports
  stands h it' hlive := by
    rw [live_push] at hlive
    split at hlive
    · exact Option.some.inj hlive ▸ hit
    · exact hs.stands h it' hlive

lemma Good.set (hs : Good rows s) {x : Option RowIterator}
    (hx : ∀ it, x = some it → Stands rows s.results it) :
    Good rows { s with iterators := s.iterators.set h x } where
  reports := hs.reports
  stands h' it hlive := by
    obtain ⟨-, hit⟩ | ⟨-, hit⟩ := live_set hlive
    · exact hx it hit
    · exact hs.stands h' it hit

/-- An iterator is moved so often. -/
lemma Good.advance (hs : Good rows s) (hlive : s.live h = some it) (hmove : s.Movable rows h n) :
    ∃ s', s.store h (it.advance Results.cursor n s.results) = some s' ∧ Good rows s' := by
  have hit := hs.stands h it hlive
  obtain rfl | hend | ⟨hready, hothers⟩ := hmove it hlive
  · exact ⟨_, rfl, hs.set fun it' hit' => Option.some.inj hit' ▸ hit⟩
  · obtain rfl | ⟨k, p, row, rfl, -⟩ := hit
    · rw [ResultsetIterator.advance_end]
      exact ⟨_, rfl, hs.set fun it' hit' => Option.some.inj hit' ▸ .inl rfl⟩
    · cases hend
  · obtain ⟨rs', it', hadvance, hkeeps, hit', hplaced⟩ :=
      advance_spec hs.reports hit (.inr (.inr hready))
    refine ⟨{ results := rs', iterators := s.iterators.set h (some it') }, by rw [hadvance]; rfl,
      hkeeps.reports, fun h' other hother => ?_⟩
    obtain ⟨-, heq⟩ | ⟨hne, hother⟩ := live_set hother
    · exact Option.some.inj heq ▸ hit'
    · have hstands := hs.stands h' other hother
      obtain hend | ⟨hdetached, huntouched⟩ := hothers h' other hne hother
      · obtain rfl | ⟨k, p, row, rfl, -⟩ := hstands
        · exact .inl rfl
        · cases hend
      · refine hstands.keep hkeeps huntouched fun k hk => ?_
        have hdetached' : rs'.detached = true := hkeeps.detached.trans hdetached
        have hbefore : Placed rows s.results := by
          obtain rfl | ⟨k, p, row, rfl, -, -, hpos, hpassed, -⟩ := hstands
          · cases hk
          · exact fun _ => ⟨p, hpos, hpassed⟩
        obtain ⟨p, hpos, hpassed⟩ := hplaced hbefore hdetached'
        exact ⟨p, hpos, hpassed, fun hfalse => absurd hfalse (by simp [hdetached'])⟩

/-- A pass from the first row on, which leaves the iterators where they are. -/
lemma Good.rewind (hs : Good rows s) (hkeeps : s.results.Keeps rows (fun _ => True) rs')
    (hpassed : ∀ h it, s.live h = some it → ∀ k : Nat, it.pos_ = k → ∃ n, 0 < n ∧
      rs'.Passed rows n ∧ (rs'.detached = false → n = k + 1)) :
    Good rows { s with results := rs' } where
  reports := hkeeps.reports
  stands h it hlive :=
    (hs.stands h it hlive).keep hkeeps (fun _ _ => trivial) (hpassed h it hlive)

lemma Good.length_pos (hs : Good rows s) (hlive : s.live h = some it) (hk : it.pos_ = (k : Int)) :
    k < rows.length :=
  have ⟨_, hrow, _⟩ := hs.denotes h it hlive k hk
  (List.getElem?_eq_some_iff.mp hrow).1

lemma Good.begin (hs : Good rows s) (hsafe : Safe rows s .begin) :
    ∃ s', s.step .begin = some s' ∧ Good rows s' := by
  obtain ⟨rs', it', hbegin, hkeeps, hit', hfirst⟩ := begin_spec hs.reports
  refine ⟨Iteration.push { s with results := rs' } it', by simp only [step, hbegin], ?_⟩
  refine Good.push (hs.rewind hkeeps fun h it hlive k hk => ?_) hit'
  have hlt := hs.length_pos hlive hk
  obtain ⟨rfl, -⟩ | ⟨-, hpassed, -⟩ := hfirst
  · cases hlt
  · refine ⟨1, Nat.one_pos, hpassed, fun hdetached => ?_⟩
    obtain hdetached' | hatFirst := hsafe
    · simp [hkeeps.detached, hdetached'] at hdetached
    · have hzero := hatFirst h it hlive
      omega

/-- What `size` and `empty` do, where the iterators stay and yield the same rows. -/
def Observes (rows : List RowTexts) (s s' : Iteration) : Prop :=
  Good rows s' ∧ ∀ h it, s.live h = some it → ∀ n, yields s'.results it n = yields s.results it n

lemma Good.observes (hs : Good rows s) (hkeeps : s.results.Keeps rows (fun _ => True) rs')
    (hpassed : ∀ h it, s.live h = some it → ∀ k : Nat, it.pos_ = k →
      ∀ p, 0 < p → s.results.Passed rows p → (s.results.detached = false → p = k + 1) →
        ∃ p', 0 < p' ∧ rs'.Passed rows p' ∧ (rs'.detached = false → p' = k + 1) ∧
          (p = p' ∨ rows.length ≤ p ∧ rows.length ≤ p')) :
    Observes rows s { s with results := rs' } := by
  have hplaces : ∀ h it, s.live h = some it → ∀ k : Nat, it.pos_ = k →
      ∃ p p', s.results.Passed rows p ∧ 0 < p' ∧ rs'.Passed rows p' ∧
        (rs'.detached = false → p' = k + 1) ∧ (p = p' ∨ rows.length ≤ p ∧ rows.length ≤ p') := by
    intro h it hlive k hk
    obtain rfl | ⟨k', p, row, rfl, -, -, hpos, hp, hplace⟩ := hs.stands h it hlive
    · cases hk
    · obtain rfl : k' = k := Int.ofNat.inj hk
      obtain ⟨p', h'⟩ := hpassed h _ hlive k' rfl p hpos hp hplace
      exact ⟨p, p', hp, h'⟩
  have hgood : Good rows { s with results := rs' } := hs.rewind hkeeps fun h it hlive k hk =>
    have ⟨_, p', _, hpos, hp', hplace, _⟩ := hplaces h it hlive k hk
    ⟨p', hpos, hp', hplace⟩
  refine ⟨hgood, fun h it hlive n => ?_⟩
  refine yields_kept hs.reports hkeeps.reports (hs.stands h it hlive) (hgood.stands h it hlive) ?_ n
  intro hend
  obtain rfl | ⟨k, -, row, rfl, -⟩ := hs.stands h it hlive
  · exact absurd rfl hend
  · obtain ⟨p, p', hp, -, hp', -, hsame⟩ := hplaces h _ hlive k rfl
    exact ⟨p, p', hp, hp', hsame⟩

lemma Good.empty (hs : Good rows s) (hsafe : Safe rows s .empty) :
    ∃ s', s.step .empty = some s' ∧ Observes rows s s' := by
  obtain ⟨rs', it', hbegin, hkeeps, -, hfirst⟩ := begin_spec hs.reports
  refine ⟨{ s with results := rs' }, by simp only [step, Resultset.empty, hbegin],
    hs.observes hkeeps fun h it hlive k hk p hpos hp hplace => ?_⟩
  have hlt := hs.length_pos hlive hk
  obtain ⟨rfl, -⟩ | ⟨-, hpassed, -⟩ := hfirst
  · cases hlt
  rw [Safe, hp.place] at hsafe
  obtain hidle | hsafe := hsafe
  · have hend := hidle h it hlive
    omega
  · refine ⟨1, Nat.one_pos, hpassed, fun hdetached => ?_, by omega⟩
    have hp' := hplace (hkeeps.detached.symm.trans hdetached)
    omega

lemma outcome_of_reports (hrs : rs.Reports rows) : rs.impl_.outcome.rows = rows := by
  obtain ⟨impl, bindings⟩ := rs
  cases impl with
  | sqlite r => exact congrArg DriverOutcome.rows hrs.1
  | mysqlStmt r =>
    obtain ⟨houtcome, hreset, hexecute, hmetadata⟩ := hrs
    simp only [ResultsetImpl.outcome, Mysql.Stmt.reported, hreset, hexecute, hmetadata, houtcome]
  | mysql r =>
    obtain ⟨-, n, hres⟩ := hrs
    simp only [ResultsetImpl.outcome, hres, Option.map_some, Option.getD_some]
  | postgres r => exact hrs

lemma size_spec (hrs : rs.Reports rows) (hrows : rows.length ≤ 2 ^ 31) :
    ∃ rs', Resultset.size Results.cursor (rs.impl_.outcome.rows.length + 2) rs =
        some (rs', .ok rows.length) ∧
      rs.Keeps rows (fun _ => True) rs' ∧
      (0 < rows.length → rs.detached = true → ∃ n, rows.length ≤ n ∧ rs'.Passed rows n) := by
  obtain ⟨rs₁, it₁, hbegin, hkeeps, -, ⟨rfl, rfl⟩ | ⟨hlength, hpassed, rfl⟩⟩ := begin_spec hrs
  · exact ⟨rs₁, by simp only [Resultset.size, hbegin]; rfl, hkeeps, nofun⟩
  · have hit₁ : ({ pos_ := (0 : Nat), value_ := some rs₁.currentRow } : RowIterator).pos_ =
        (0 : Nat) := rfl
    have hfuel : rows.length + 1 ≤ 0 + (rows.length + 2) := by omega
    obtain ⟨rs', hdistance, hkeeps', hdone⟩ :=
      distance_spec hkeeps.reports hpassed hit₁ hlength hrows hfuel
    refine ⟨rs', ?_, hkeeps.trans hkeeps', fun _ h => hdone (hkeeps.detached.trans h)⟩
    simp only [Resultset.size, hbegin, outcome_of_reports hrs, hdistance, Nat.sub_zero]

lemma Good.size (hs : Good rows s) (hsafe : Safe rows s .size) :
    ∃ s', s.step .size = some s' ∧ Observes rows s s' := by
  obtain ⟨hrows, hsafe⟩ := hsafe
  obtain ⟨rs', hsize, hkeeps, hdone⟩ := size_spec hs.reports hrows
  refine ⟨{ s with results := rs' }, by simp only [step, hsize],
    hs.observes hkeeps fun h it hlive k hk p hpos hp hplace => ?_⟩
  have hlt := hs.length_pos hlive hk
  rw [hp.place] at hsafe
  obtain hidle | ⟨hdetached, hend⟩ := hsafe
  · have hpos := hidle h it hlive
    omega
  · obtain ⟨p', hlength, hp'⟩ := hdone (by omega) hdetached
    refine ⟨p', by omega, hp', fun hfalse => ?_, .inr ⟨hend, hlength⟩⟩
    simp [hkeeps.detached, hdetached] at hfalse

lemma advance_one (it : RowIterator) (rs : Results) :
    it.advance Results.cursor 1 rs = it.increment Results.cursor rs := by
  rw [ResultsetIterator.advance]
  cases it.increment Results.cursor rs with
  | none => rfl
  | some r =>
    obtain ⟨rs', out⟩ := r
    cases out <;> rfl

/-- A safe step keeps all iterators where they belong. -/
lemma Good.step (hs : Good rows s) {op : IteratorOp} (hsafe : Safe rows s op) :
    ∃ s', s.step op = some s' ∧ Good rows s' ∧ (op = .size ∨ op = .empty → Observes rows s s') := by
  have hkept {f : RowIterator → Option Iteration} (h : Nat)
      (hf : ∀ it, s.live h = some it → ∃ s', f it = some s' ∧ Good rows s') :
      ∃ s', s.withIterator h f = some s' ∧ Good rows s' := by
    rw [withIterator]
    cases hlive : s.live h with
    | none => exact ⟨s, rfl, hs⟩
    | some it => exact hf it hlive
  have hother (hop : op ≠ .size ∧ op ≠ .empty) (h : ∃ s', s.step op = some s' ∧ Good rows s') :
      ∃ s', s.step op = some s' ∧ Good rows s' ∧
        (op = .size ∨ op = .empty → Observes rows s s') := by
    obtain ⟨s', hstep, hgood⟩ := h
    exact ⟨s', hstep, hgood, fun hop' => absurd hop' (not_or.mpr hop)⟩
  cases op with
  | begin => exact hother ⟨nofun, nofun⟩ (hs.begin hsafe)
  | copy h =>
    exact hother ⟨nofun, nofun⟩ (hkept h fun it hlive => ⟨_, rfl, hs.push (hs.stands h it hlive)⟩)
  | increment h =>
    refine hother ⟨nofun, nofun⟩ (hkept h fun it hlive => ?_)
    rw [← advance_one]
    exact hs.advance hlive hsafe
  | postIncrement h =>
    refine hother ⟨nofun, nofun⟩ (hkept h fun it hlive => ?_)
    rw [← advance_one]
    have hlive' : (s.push it).live h = some it := by
      rw [live_push, hlive, ite_self]
    exact (hs.push (hs.stands h it hlive)).advance hlive' (hsafe it hlive)
  | plus h n =>
    refine hother ⟨nofun, nofun⟩ (hkept h fun it hlive => ?_)
    have hlive' : (s.push it).live s.iterators.length = some it := by rw [live_push, if_pos rfl]
    exact (hs.push (hs.stands h it hlive)).advance hlive' (hsafe it hlive)
  | plusAssign h n =>
    exact hother ⟨nofun, nofun⟩ (hkept h fun it hlive => hs.advance hlive hsafe)
  | size =>
    obtain ⟨s', hstep, hobserves⟩ := hs.size hsafe
    exact ⟨s', hstep, hobserves.1, fun _ => hobserves⟩
  | empty =>
    obtain ⟨s', hstep, hobserves⟩ := hs.empty hsafe
    exact ⟨s', hstep, hobserves.1, fun _ => hobserves⟩
  | drop h => exact hother ⟨nofun, nofun⟩ ⟨_, rfl, hs.set (x := none) nofun⟩

/-! ### Runs -/

/-- The steps of a program that goes on. -/
def SafeStep (rows : List RowTexts) : Option Iteration → IteratorOp → Prop
  | none, _ => True
  | some s, op => Safe rows s op

/-- In a run of safe steps the iterators denote the rows of their positions, and `size` and `empty`
do not change what they yield. -/
theorem sound_of_safe {ops : List IteratorOp} (hrs : rs.Reports rows)
    (hops : iteratorMachine.Along (SafeStep rows) (some { results := rs }) ops) :
    ∀ e ∈ (iteratorMachine.run (some { results := rs }) ops).2, e.Sound rows := by
  have hinit : Good rows { results := rs } := ⟨hrs, fun h it hlive => by simp [live] at hlive⟩
  refine iteratorMachine.run_outputs_along (SafeStep rows)
    (fun s => ∃ s', s = some s' ∧ Good rows s') _ ?_ ?_ ⟨_, rfl, hinit⟩ hops
  · rintro _ op ⟨s, rfl, hs⟩ hsafe
    obtain ⟨s', hstep, hgood, -⟩ := hs.step hsafe
    exact ⟨s', hstep, hgood⟩
  · rintro _ op ⟨s, rfl, hs⟩ hsafe e he
    obtain rfl := List.mem_singleton.mp he
    obtain ⟨s', hstep, hgood, hobserves⟩ := hs.step hsafe
    exact ⟨s', hstep, hgood.denotes, hgood.equalsAgree, fun hop => (hobserves hop).2⟩

/-- Three rows of a PostgreSQL result. -/
def postgresRows : Results where
  impl_ := .postgres { rows := [[some "a"], [some "b"], [some "c"]], countable := by decide }

/-- A const observer between two moves of one iterator. -/
def observedRun : List IteratorOp := [.begin, .empty, .plusAssign 0 2]

/-- The steps of this run are safe. -/
theorem sound_of_safe_empty :
    iteratorMachine.Along (SafeStep [[some "a"], [some "b"], [some "c"]])
        (some { results := postgresRows }) observedRun ∧
      ∀ e ∈ (iteratorMachine.run (some { results := postgresRows }) observedRun).2,
        e.Sound [[some "a"], [some "b"], [some "c"]] := by
  have hops : iteratorMachine.Along (SafeStep [[some "a"], [some "b"], [some "c"]])
      (some { results := postgresRows }) observedRun := by
    refine ⟨.inl rfl, .inr (.inl rfl), ?_, trivial⟩
    intro it hlive
    obtain rfl := Option.some.inj hlive
    refine .inr (.inr ⟨.inl ⟨rfl, .inl (by decide)⟩, fun h' it' hne hlive' => ?_⟩)
    cases h' with
    | zero => exact absurd rfl hne
    | succ h' => cases hlive'
  exact ⟨hops, sound_of_safe rfl hops⟩

/-- `auto i = rs.begin(); auto j = i; ++i; ++j;` takes `j` to the position 1 and to the third
row. -/
theorem not_sound_copy :
    ¬∀ e ∈ (iteratorMachine.run (some { results := postgresRows })
        [.begin, .copy 0, .increment 0, .increment 1]).2,
      e.Sound [[some "a"], [some "b"], [some "c"]] := by
  intro h
  obtain ⟨s, hs, hdenotes, -⟩ := h _ (.tail _ (.tail _ (.tail _ (.head _))))
  obtain rfl := Option.some.inj hs
  obtain ⟨row, hrow, hshows⟩ := hdenotes 1 _ rfl 1 rfl
  obtain rfl := Option.some.inj hrow
  exact absurd (Option.some.inj hshows) (by decide)

end Iteration

end CodaDb

import TradingSystem.Wallet.Service
import TradingSystem.Execution.Matching

/-!
# What one paper signal does to the wallet

The equations of the wallet's ledger, one for each function of the service: what a fill is
worth to the cash and the book, and what a whole signal leaves behind.

* `executeEntry_eq_ok`, `executeExit_eq_ok` — one fill.
* `IsExit.exists_remaining`, `IsEntry.exists_opened` — the one position before and after it.
* `process_eq_ok` — the execution that is stored and the wallet after it agree.
* `process_filed` — a signal moves the position of its own symbol only.
-/

namespace TradingSystem
namespace Wallet

open Numeric Logic

/-! ### Answers -/

section Answers

variable {α σ : Type}

@[simp] theorem raising_eq_ok {x : Except Fault α} {a : α} : raising x = .ok a ↔ x = .ok a := by
  cases x <;> simp [raising]

@[simp] theorem onObject_eq_ok {method : Program Fault σ α} {object object' : σ} {a : α} :
    onObject method object = .ok (a, object') ↔ method object = .ok a object' := by
  unfold onObject
  cases method object <;> simp

@[simp] theorem rejectUnless_eq_ok {condition : Prop} [Decidable condition] {code : String}
    {u : Unit} : rejectUnless condition code = .ok u ↔ condition := by
  unfold rejectUnless
  split <;> simp_all

end Answers

variable {config : WalletConfig} {wallet wallet' : WalletState} {message : PaperSignal}
  {book book' : PositionBook} {cash cash' : Decimal} {fill : Fill} {position : Position}
  {risks : List OpenRisk}

/-! ### Fills -/

/-- A paper fill is on the symbol, the side and the direction of its request. -/
theorem submit_eq_ok {rates : PaperCostModel} {account : PaperAccount} {request : OrderRequest}
    (hmarket : request.orderType = .market)
    (h : submit rates message account request = .ok fill) :
    fill.symbol = request.symbol ∧ fill.positionSide = request.positionSide ∧
      fill.reduceOnly = (request.reduceOnly || request.closePosition) := by
  unfold submit at h
  simp only [Except.bind_eq_ok] at h
  obtain ⟨-, -, order, horder, h⟩ := h
  obtain ⟨rfl, -⟩ := Order.postInit_eq_ok horder
  split at h
  · next filled order' hmatch =>
    cases h
    obtain ⟨_, _, -, -, -, hexecution⟩ := Matcher.matchOrder_eq_ok hmarket hmatch
    exact ⟨hexecution.symbol_eq, hexecution.positionSide_eq, hexecution.reduceOnly_eq⟩
  · cases h

/-- What an entry fill does to the ledger: the position it opens and its fee are paid from
the cash. -/
structure IsEntry (message : PaperSignal) (book : PositionBook) (cash : Decimal)
    (fill : Fill) (book' : PositionBook) (cash' : Decimal) : Prop where
  side_eq : message.side = some fill.positionSide
  directed : fill.positionSide ≠ .both
  symbol_eq : fill.symbol = message.signal.symbol
  reduceOnly_eq : fill.reduceOnly = false
  applied : ∃ level, PositionBook.apply fill (some (message.signal.leverage.getD 1))
    (some .isolated) message.signal.marketType level book = .ok ⟨⟩ book'
  paid : ∃ position, bookPosition book' message.signal.symbol = .ok (some position) ∧
    cash' = quantizeAmount (cash - positionValue (some position) - fill.fee)
  cash_nonneg : 0 ≤ cash'

theorem executeEntry_eq_ok
    (h : executeEntry config message book cash risks = .ok (fill, book', cash')) :
    IsEntry message book cash fill book' cash' := by
  unfold executeEntry at h
  split at h
  · cases h
  simp only [Except.bind_eq_ok, raising_eq_ok] at h
  obtain ⟨quantity, -, _, -, h⟩ := h
  split at h
  · cases h
  next side hside =>
  simp only [Except.bind_eq_ok, raising_eq_ok, require_eq_ok] at h
  obtain ⟨_, -, request, hrequest, filled, hfill, _, -, _, -, level, hlevel, ⟨_, opened⟩, hopened,
    position, hposition, -, hsome, -, hcash, _, -, h⟩ := h
  cases h
  -- the request of the signal, and its fill
  unfold OrderRequest.postInit at hrequest
  simp only [Except.bind_eq_ok, require_eq_ok] at hrequest
  obtain ⟨-, -, -, -, -, -, -, -, hrequest⟩ := hrequest
  cases hrequest
  obtain ⟨hsymbol, hpositionSide, hreduce⟩ := submit_eq_ok rfl hfill
  obtain ⟨held, rfl⟩ := Option.isSome_iff_exists.1 hsome
  unfold liquidationPriceOf at hlevel
  simp only [Except.bind_eq_ok, rejectUnless_eq_ok] at hlevel
  exact {
    side_eq := hside.trans (congrArg some hpositionSide.symm)
    directed := hlevel.choose_spec.1
    symbol_eq := hsymbol
    reduceOnly_eq := hreduce
    applied := ⟨level, onObject_eq_ok.1 hopened⟩
    paid := ⟨held, hposition, rfl⟩
    cash_nonneg := hcash }

/-- What an exit fill does to the ledger: the position is marked at the fill's price, and
its value less what remains of it and the fee goes to the cash. -/
structure IsExit (book : PositionBook) (position : Position) (cash : Decimal)
    (fill : Fill) (book' : PositionBook) (cash' : Decimal) : Prop where
  symbol_eq : fill.symbol = position.symbol
  positionSide_eq : fill.positionSide = position.side
  reduceOnly_eq : fill.reduceOnly = true
  settled : ∃ marked remaining, Position.updatePrice fill.price position = .ok ⟨⟩ marked ∧
    PositionBook.apply fill none none .futures 0
      (book.update (position.symbol, position.side) (some marked)) = .ok ⟨⟩ book' ∧
    bookPosition book' position.symbol = .ok remaining ∧
    cash' = quantizeAmount (recompute cash (some marked) - fill.fee - positionValue remaining)
  cash_nonneg : 0 ≤ cash'

theorem executeExit_eq_ok
    (h : executeExit config message book position cash = .ok (fill, book', cash')) :
    IsExit book position cash fill book' cash' := by
  unfold executeExit at h
  simp only [Except.bind_eq_ok, raising_eq_ok, require_eq_ok] at h
  obtain ⟨_, -, request, hrequest, filled, hfill, _, -, ⟨_, marked⟩, hmarked, ⟨_, reduced⟩,
    hreduced, remaining, hremaining, -, hcash, _, -, h⟩ := h
  cases h
  unfold OrderRequest.postInit exitRequest at hrequest
  simp only [Except.bind_eq_ok, require_eq_ok] at hrequest
  obtain ⟨-, -, -, -, -, -, -, -, hrequest⟩ := hrequest
  cases hrequest
  obtain ⟨hsymbol, hpositionSide, hreduce⟩ := submit_eq_ok rfl hfill
  exact {
    symbol_eq := hsymbol
    positionSide_eq := hpositionSide
    reduceOnly_eq := hreduce
    settled := ⟨marked, remaining, onObject_eq_ok.1 hmarked, onObject_eq_ok.1 hreduced,
      hremaining, rfl⟩
    cash_nonneg := hcash }

/-! ### The book of one position -/

/-- The position of a wallet is on an allowed symbol and has a direction. -/
def Filed (policy : RiskPolicy) (position : Option Position) : Prop :=
  ∀ held ∈ position, held.symbol ∈ policy.allowedSymbols ∧ held.side ≠ .both

variable {policy : RiskPolicy} {current held found : Option Position} {symbol : String}

theorem bookOf_self : bookOf (some position) (position.symbol, position.side) = some position :=
  PositionBook.update_self ..

theorem bookOf_of_ne {key : PositionKey} (h : key ≠ (position.symbol, position.side)) :
    bookOf (some position) key = none :=
  PositionBook.update_of_ne h

/-- Rebinding the one key of a book. -/
theorem bookOf_update (h : ∀ other ∈ held, other.symbol = position.symbol ∧
      other.side = position.side) :
    (bookOf (some position)).update (position.symbol, position.side) held = bookOf held := by
  cases held with
  | none =>
    ext key : 1
    by_cases hkey : key = (position.symbol, position.side)
    · rw [hkey, PositionBook.update_self]
      rfl
    · rw [PositionBook.update_of_ne hkey, bookOf_of_ne hkey]
      rfl
  | some other =>
    obtain ⟨hsymbol, hside⟩ := h other rfl
    change ((bookOf (some position)).update _ _) =
      PositionBook.empty.update (other.symbol, other.side) (some other)
    rw [hsymbol, hside]
    exact PositionBook.update_update ..

/-- Looking a symbol up finds the position when it is on that symbol. -/
theorem bookPosition_bookOf (hdirected : ∀ held ∈ current, held.side ≠ .both)
    (h : bookPosition (bookOf current) symbol = .ok found) :
    found = current.filter fun held => held.symbol = symbol := by
  unfold bookPosition at h
  simp only [Except.bind_eq_ok, require_eq_ok] at h
  obtain ⟨-, -, h⟩ := h
  cases h
  cases current with
  | none => rfl
  | some position =>
    have hside := hdirected position rfl
    by_cases hsymbol : position.symbol = symbol
    · subst hsymbol
      have hself := @bookOf_self position
      rw [Option.filter_some, if_pos (by simp)]
      -- the symbol is the one asked for, so one of the two lookups finds it
      cases hdirection : position.side with
      | long =>
        rw [hdirection] at hself
        rw [hself]
        rfl
      | short =>
        rw [hdirection] at hself
        rw [bookOf_of_ne (by simp [hdirection]), hself]
        rfl
      | both => exact absurd hdirection hside
    · rw [Option.filter_some, if_neg (by simpa using hsymbol),
        bookOf_of_ne (by simp [Ne.symm hsymbol]), bookOf_of_ne (by simp [Ne.symm hsymbol])]
      rfl

/-- Looking all allowed symbols up finds the position. -/
theorem anyPosition_bookOf (hfiled : Filed policy current)
    (h : anyPosition policy (bookOf current) = .ok found) : found = current := by
  unfold anyPosition at h
  simp only [Except.bind_eq_ok, require_eq_ok] at h
  obtain ⟨-, -, h⟩ := h
  cases h
  cases current with
  | none =>
    have hnone : (policy.allowedSymbols.flatMap fun symbol =>
        (bookOf none (symbol, .long)).toList ++ (bookOf none (symbol, .short)).toList) = [] := by
      rw [List.flatMap_eq_nil_iff]
      exact fun symbol _ => rfl
    rw [hnone]
    rfl
  | some position =>
    obtain ⟨hsymbol, hside⟩ := hfiled position rfl
    -- whatever is found is the position, and something is found
    have hall : ∀ other ∈ policy.allowedSymbols.flatMap fun symbol =>
        (bookOf (some position) (symbol, .long)).toList ++
          (bookOf (some position) (symbol, .short)).toList, other = position := by
      intro other hother
      simp only [List.mem_flatMap, List.mem_append, Option.mem_toList] at hother
      obtain ⟨symbol, -, hlong | hshort⟩ := hother
      · by_cases hkey : (symbol, PositionSide.long) = (position.symbol, position.side)
        · rw [hkey, bookOf_self] at hlong
          exact (Option.some.inj hlong).symm
        · rw [bookOf_of_ne hkey] at hlong
          cases hlong
      · by_cases hkey : (symbol, PositionSide.short) = (position.symbol, position.side)
        · rw [hkey, bookOf_self] at hshort
          exact (Option.some.inj hshort).symm
        · rw [bookOf_of_ne hkey] at hshort
          cases hshort
    have hmem : position ∈ policy.allowedSymbols.flatMap fun symbol =>
        (bookOf (some position) (symbol, .long)).toList ++
          (bookOf (some position) (symbol, .short)).toList := by
      simp only [List.mem_flatMap, List.mem_append, Option.mem_toList]
      refine ⟨position.symbol, hsymbol, ?_⟩
      have hself := @bookOf_self position
      cases hdirection : position.side with
      | long => exact Or.inl (hdirection ▸ hself)
      | short => exact Or.inr (hdirection ▸ hself)
      | both => exact absurd hdirection hside
    cases hlist : policy.allowedSymbols.flatMap fun symbol =>
        (bookOf (some position) (symbol, .long)).toList ++
          (bookOf (some position) (symbol, .short)).toList with
    | nil =>
      rw [hlist] at hmem
      cases hmem
    | cons first rest =>
      rw [List.head?_cons, hall first (hlist ▸ List.mem_cons_self)]

/-- **An exit leaves the book of what remains.** -/
theorem IsExit.exists_remaining
    (h : IsExit (bookOf (some position)) position cash fill book' cash')
    (hside : position.side ≠ .both) :
    ∃ marked remaining, Position.updatePrice fill.price position = .ok ⟨⟩ marked ∧
      remaining = (if (marked.reducedBy fill.quantity).quantity = 0 then none
        else some (marked.reducedBy fill.quantity)) ∧
      book' = bookOf remaining ∧
      (∀ other ∈ remaining, other.symbol = position.symbol ∧ other.side = position.side) ∧
      cash' =
        quantizeAmount (recompute cash (some marked) - fill.fee - positionValue remaining) := by
  obtain ⟨marked, found, hmarked, happly, hfound, hcash⟩ := h.settled
  obtain ⟨released, hreduce⟩ := (PositionBook.apply_of_reduceOnly h.reduceOnly_eq).1 happly
  obtain ⟨-, before, after, hheld, hafter, rfl⟩ := PositionBook.reduce_eq_ok.1 hreduce
  obtain ⟨-, hmark⟩ := Position.updatePrice_eq_ok hmarked
  -- a mark changes neither the symbol nor the side
  have hsymbol : marked.symbol = position.symbol := by rw [hmark]
  have hmarkedSide : marked.side = position.side := by rw [hmark]
  rw [h.symbol_eq, h.positionSide_eq] at hheld hfound
  rw [PositionBook.update_self] at hheld
  cases hheld
  obtain ⟨-, -, -, -, rfl⟩ := Position.reduceQuantity_eq_ok.1 hafter
  rw [fill.isMoney_quantity.quantizeAmount_eq] at hfound ⊢
  set remaining := if (marked.reducedBy fill.quantity).quantity = 0 then none
    else some (marked.reducedBy fill.quantity) with hremaining
  have hkey : ∀ other ∈ remaining, other.symbol = position.symbol ∧
      other.side = position.side := by
    intro other hother
    rw [hremaining] at hother
    split at hother
    · cases hother
    · cases hother
      rw [Position.reducedBy_symbol, Position.reducedBy_side]
      exact ⟨hsymbol, hmarkedSide⟩
  rw [h.symbol_eq, h.positionSide_eq, PositionBook.update_update, bookOf_update hkey] at *
  have hdirected : ∀ other ∈ remaining, other.side ≠ .both := fun other hother =>
    (hkey other hother).2 ▸ hside
  -- the position read back is what the reduction left
  have hall : found = remaining := by
    rw [bookPosition_bookOf hdirected hfound]
    cases hrest : remaining with
    | none => rfl
    | some other => simp [(hkey other hrest).1]
  rw [hall] at hcash
  exact ⟨marked, remaining, hmarked, hremaining, rfl, hkey, hcash⟩

/-- **An entry from an empty book leaves the book of what it opens.** -/
theorem IsEntry.exists_opened (h : IsEntry message (bookOf none) cash fill book' cash') :
    ∃ level position,
      (PositionBook.openedPosition fill (message.signal.leverage.getD 1) .isolated
        message.signal.marketType level).postInit = .ok position ∧
      book' = bookOf (some position) ∧ position.symbol = message.signal.symbol ∧
      position.side = fill.positionSide ∧
      cash' = quantizeAmount (cash - positionValue (some position) - fill.fee) := by
  obtain ⟨level, happly⟩ := h.applied
  obtain ⟨found, hfound, hcash⟩ := h.paid
  obtain ⟨-, position, hposition, rfl⟩ := (PositionBook.apply_of_free h.reduceOnly_eq rfl).1 happly
  obtain ⟨hfields, -⟩ := Position.postInit_eq_ok hposition
  have hsymbol : position.symbol = fill.symbol := by rw [hfields]; rfl
  have hpositionSide : position.side = fill.positionSide := by rw [hfields]; rfl
  have hbook : (bookOf none).update (fill.symbol, fill.positionSide) (some position) =
      bookOf (some position) := by
    rw [← hsymbol, ← hpositionSide]
    rfl
  rw [hbook] at hfound ⊢
  have hall := bookPosition_bookOf (by simpa [hpositionSide] using h.directed) hfound
  rw [Option.filter_some, if_pos (by simp [hsymbol, h.symbol_eq])] at hall
  rw [Option.some.inj hall] at hcash
  exact ⟨level, position, hposition, rfl, hsymbol.trans h.symbol_eq, hpositionSide, hcash⟩

/-! ### One signal -/

/-- The risk that is open after a signal. -/
def openRiskAfter (config : WalletConfig) (message : PaperSignal) : Option OpenRisk :=
  if message.intent = .exit then none
  else message.side.map fun side => (message.signal.symbol, side, config.policy.riskPerTrade)

/-- **What a signal commits**: the stored execution shows the wallet after it. -/
structure IsCommitted (config : WalletConfig) (message : PaperSignal)
    (execution : WalletExecution) (wallet wallet' : WalletState) : Prop where
  signalId_eq : execution.signalId = message.signalId
  symbol_eq : execution.symbol = message.signal.symbol
  cash_eq : execution.accounting.cashBalance = wallet'.cash
  position_eq : execution.position = wallet'.position
  positionValue_eq : execution.accounting.positionValue = positionValue wallet'.position
  equity_eq : execution.accounting.totalEquity = recompute wallet'.cash wallet'.position
  openRisk_eq : wallet'.openRisk = openRiskAfter config message
  killSwitch_eq : wallet'.killSwitchEngaged = wallet.killSwitchEngaged
  cash_money : IsMoney wallet'.cash
  cash_nonneg : 0 ≤ wallet'.cash

theorem IsEntry.cash_money (h : IsEntry message book cash fill book' cash') : IsMoney cash' := by
  obtain ⟨_, -, rfl⟩ := h.paid
  exact isMoney_quantizeAmount _

theorem IsExit.cash_money (h : IsExit book position cash fill book' cash') : IsMoney cash' := by
  obtain ⟨_, _, -, -, -, rfl⟩ := h.settled
  exact isMoney_quantizeAmount _

variable {candidate candidate' : Candidate}

/-- The exit part: nothing for an entry, else the held position of the symbol is closed. -/
theorem closePart_eq_ok (h : closePart config message candidate = .ok candidate') :
    (message.intent = .enter ∧ candidate' = candidate) ∨
    (message.intent ≠ .enter ∧ ∃ current fill book' cash',
      bookPosition candidate.book message.signal.symbol = .ok (some current) ∧
      IsExit candidate.book current candidate.cash fill book' cash' ∧
      candidate' = {
        book := book'
        cash := cash'
        openRisk := none
        fills := candidate.fills ++ [fill] }) := by
  unfold closePart at h
  by_cases hintent : message.intent = .enter
  · rw [if_pos hintent] at h
    cases h
    exact Or.inl ⟨hintent, rfl⟩
  · rw [if_neg hintent] at h
    simp only [Except.bind_eq_ok, raising_eq_ok] at h
    obtain ⟨current, hcurrent, h⟩ := h
    cases current with
    | none => cases h
    | some current =>
      simp only [Except.bind_eq_ok] at h
      obtain ⟨-, -, ⟨fill, book', cash'⟩, hexit, h⟩ := h
      cases h
      exact Or.inr ⟨hintent, current, fill, book', cash', hcurrent, executeExit_eq_ok hexit, rfl⟩

/-- The entry part: nothing for an exit, else a position is opened where none is held. -/
theorem openPart_eq_ok (h : openPart config message candidate = .ok candidate') :
    (message.intent = .exit ∧ candidate' = candidate) ∨
    (message.intent ≠ .exit ∧ ∃ fill book' cash',
      bookPosition candidate.book message.signal.symbol = .ok none ∧
      anyPosition config.policy candidate.book = .ok none ∧
      IsEntry message candidate.book candidate.cash fill book' cash' ∧
      candidate' = {
        book := book'
        cash := cash'
        openRisk := openRiskAfter config message
        fills := candidate.fills ++ [fill] }) := by
  unfold openPart at h
  by_cases hintent : message.intent = .exit
  · rw [if_pos hintent] at h
    cases h
    exact Or.inl ⟨hintent, rfl⟩
  · rw [if_neg hintent] at h
    simp only [Except.bind_eq_ok, raising_eq_ok, rejectUnless_eq_ok] at h
    obtain ⟨held, hheld, -, rfl, any, hany, -, rfl, ⟨fill, book', cash'⟩, hentry, h⟩ := h
    have hledger := executeEntry_eq_ok hentry
    rw [hledger.side_eq] at h
    cases h
    refine Or.inr ⟨hintent, fill, book', cash', hheld, hany, hledger, ?_⟩
    rw [openRiskAfter, if_neg hintent, hledger.side_eq]
    rfl

/-- **What processing does**: both parts run in order on a copy, and the execution shows
what they lead to. -/
theorem process_eq_ok {execution : WalletExecution}
    (h : process config wallet message = .ok (execution, wallet')) :
    ∃ closed final,
      closePart config message {
        book := bookOf wallet.position
        cash := wallet.cash
        openRisk := wallet.openRisk
        fills := [] } = .ok closed ∧
      openPart config message closed = .ok final ∧
      anyPosition config.policy final.book = .ok wallet'.position ∧
      final.cash = wallet'.cash ∧
      IsCommitted config message execution wallet wallet' := by
  unfold process at h
  simp only [Except.bind_eq_ok, raising_eq_ok, require_eq_ok] at h
  obtain ⟨_, -, _, -, closed, hclosed, final, hfinal, position, hposition, accounting, haccounting,
    -, -, h⟩ := h
  cases h
  refine ⟨closed, final, hclosed, hfinal, hposition, rfl, ?_⟩
  have hsnapshot : accounting.cashBalance = final.cash ∧
      accounting.positionValue = positionValue position ∧
      accounting.totalEquity = recompute final.cash position := by
    unfold snapshot at haccounting
    rw [Except.bind_eq_ok] at haccounting
    obtain ⟨_, -, haccounting⟩ := haccounting
    split at haccounting
    · cases haccounting
    · cases haccounting
      exact ⟨rfl, rfl, rfl⟩
  -- at least one part executes a fill, and every fill leaves nonnegative money
  have hcash : IsMoney final.cash ∧ 0 ≤ final.cash ∧
      final.openRisk = openRiskAfter config message := by
    rcases openPart_eq_ok hfinal with ⟨hexit, rfl⟩ | ⟨-, fill, book', cash', -, -, hentry, rfl⟩
    · rcases closePart_eq_ok hclosed with
        ⟨henter, -⟩ | ⟨-, current, fill, book', cash', -, hledger, rfl⟩
      · rw [hexit] at henter
        cases henter
      · exact ⟨hledger.cash_money, hledger.cash_nonneg, by rw [openRiskAfter, if_pos hexit]⟩
    · exact ⟨hentry.cash_money, hentry.cash_nonneg, rfl⟩
  exact {
    signalId_eq := rfl
    symbol_eq := rfl
    cash_eq := hsnapshot.1
    position_eq := rfl
    positionValue_eq := hsnapshot.2.1
    equity_eq := hsnapshot.2.2
    openRisk_eq := hcash.2.2
    killSwitch_eq := rfl
    cash_money := hcash.1
    cash_nonneg := hcash.2.1 }

/-- A validated symbol is an allowed one. -/
theorem validateSignal_eq_ok {killSwitch : Bool} {u : Unit}
    (h : validateSignal policy killSwitch message = .ok u) :
    message.signal.symbol ∈ policy.allowedSymbols := by
  unfold validateSignal at h
  simp only [Except.bind_eq_ok, rejectUnless_eq_ok] at h
  obtain ⟨_, -, _, hupper, _, hallowed, -⟩ := h
  rwa [← hupper] at hallowed

/-- **Where the position moves.** A signal closes a position of its own symbol or finds
none, and leaves one of its symbol or none. -/
theorem process_filed {execution : WalletExecution} (hfiled : Filed config.policy wallet.position)
    (h : process config wallet message = .ok (execution, wallet')) :
    Filed config.policy wallet'.position ∧
      (∀ position ∈ wallet.position, position.symbol = message.signal.symbol) ∧
      ∀ position ∈ wallet'.position, position.symbol = message.signal.symbol := by
  obtain ⟨closed, final, hclosed, hfinal, hany, -, -⟩ := process_eq_ok h
  have hallowed : message.signal.symbol ∈ config.policy.allowedSymbols := by
    unfold process at h
    simp only [Except.bind_eq_ok] at h
    obtain ⟨_, -, _, hvalid, -⟩ := h
    exact validateSignal_eq_ok hvalid
  have hdirected : ∀ position ∈ wallet.position, position.side ≠ .both := fun position hmem =>
    (hfiled position hmem).2
  -- after the exit part a position of another symbol is still there
  have hexit : ∃ rest, closed.book = bookOf rest ∧ Filed config.policy rest ∧
      ((∀ position ∈ rest, position.symbol = message.signal.symbol) →
        ∀ position ∈ wallet.position, position.symbol = message.signal.symbol) ∧
      (message.intent ≠ .enter → ∀ position ∈ rest, position.symbol = message.signal.symbol) := by
    rcases closePart_eq_ok hclosed with
      ⟨henter, rfl⟩ | ⟨-, current, fill, book', cash', hcurrent, hledger, rfl⟩
    · exact ⟨wallet.position, rfl, hfiled, id, fun hne => absurd henter hne⟩
    · have hfound := bookPosition_bookOf hdirected hcurrent
      cases hposition : wallet.position with
      | none =>
        rw [hposition] at hfound
        cases hfound
      | some position =>
        rw [hposition, Option.filter_some] at hfound
        split at hfound
        · next hsymbol =>
          cases hfound
          rw [decide_eq_true_eq] at hsymbol
          have hmember := hfiled current hposition
          simp only [hposition] at hledger
          obtain ⟨marked, remaining, -, -, hbook, hkey, -⟩ := hledger.exists_remaining hmember.2
          refine ⟨remaining, hbook, ?_, ?_, ?_⟩
          · intro other hother
            rw [(hkey other hother).1, (hkey other hother).2]
            exact hmember
          · intro _ position hmem
            cases hmem
            exact hsymbol
          · intro _ other hother
            rw [(hkey other hother).1, hsymbol]
        · cases hfound
  obtain ⟨rest, hbook, hrest, hback, hsymbols⟩ := hexit
  rcases openPart_eq_ok hfinal with
    ⟨hintent, rfl⟩ | ⟨-, fill, book', cash', -, hnone, hentry, rfl⟩
  · have hall : ∀ position ∈ rest, position.symbol = message.signal.symbol :=
      hsymbols (by rw [hintent]; decide)
    rw [hbook] at hany
    have hposition := anyPosition_bookOf hrest hany
    rw [hposition]
    exact ⟨hrest, hback hall, hall⟩
  · rw [hbook] at hnone hentry
    have hempty := anyPosition_bookOf hrest hnone
    subst hempty
    obtain ⟨level, position, -, hbook', hsymbol, hside, -⟩ := hentry.exists_opened
    have hopened : Filed config.policy (some position) := by
      intro other hother
      cases hother
      exact ⟨hsymbol ▸ hallowed, hside ▸ hentry.directed⟩
    change anyPosition config.policy book' = _ at hany
    rw [hbook'] at hany
    have hposition := anyPosition_bookOf hopened hany
    rw [hposition]
    refine ⟨hopened, hback (by simp), ?_⟩
    intro other hother
    cases hother
    exact hsymbol

end Wallet
end TradingSystem

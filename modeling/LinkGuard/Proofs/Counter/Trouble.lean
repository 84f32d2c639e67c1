import LinkGuard.Proofs.Counter.Rows

/-! # A remote store in trouble

What is laid down for a server here is trouble only: a complaint, a null or silence, never a reply
that passes for a number. A command that is answered was then carried out, request by request. One
that fails may have been carried out in part, and has at most counted up: no row is lost by it, and
none counts less than before.
-/

namespace LinkGuard

/-- No window that a command sets is over at once. -/
def Command.Coarse : Command → Prop
  | arm _ window => 1 ≤ window.millis
  | _ => True

namespace Remote

/-- What a request meets instead of being carried out. -/
inductive Trouble where
  | complaint (text : String)
  | null
  | hang
deriving DecidableEq

def Trouble.fault : Trouble → Fault
  | complaint text => .reply (.complaint text)
  | null => .reply .null
  | hang => .hang

def Server.Troubled (server : Server) : Prop :=
  ∀ laid ∈ server.faults, ∃ trouble : Trouble, laid.2.2 = trouble.fault

theorem Server.troubled_of_nothing {server : Server} (nothing : server.faults = []) :
    server.Troubled := by
  rw [Troubled, nothing]
  intro laid none
  cases none

theorem Row.count_of_after? {millis : Nat} {row left : Row} (kept : row.after? millis = some left) :
    left.count = row.count := by
  rw [after?] at kept
  split at kept
  case isTrue => rw [Option.some.inj kept]
  case isFalse =>
    split at kept
    case isTrue => cases kept
    case isFalse => rw [← Option.some.inj kept]

/-- The hits that a server has counted under a name. -/
def hits (rows : Keyed Row) (name : String) : Int := ((rows.get? name).map Row.count).getD 0

/-- A row has counted a hit, and it has no end or one that is still to come. -/
def Sound (rows : Keyed Row) : Prop :=
  ∀ name row, rows.get? name = some row → 1 ≤ row.count ∧ (row.pttl = -1 ∨ 1 ≤ row.pttl)

/-- No row is lost, and none counts less. -/
def Grows (rows rows' : Keyed Row) : Prop :=
  ∀ name row, rows.get? name = some row →
    ∃ row', rows'.get? name = some row' ∧ row.count ≤ row'.count

section

variable {rows rows' rows'' : Keyed Row} {name key : String} {row : Row}

theorem hits_of_row (found : rows.get? name = some row) : hits rows name = row.count := by
  rw [hits, found]
  rfl

theorem hits_of_no_row (none : rows.get? name = none) : hits rows name = 0 := by
  rw [hits, none]
  rfl

theorem hits_set (rows : Keyed Row) (key : String) (row : Row) (name : String) :
    hits (rows.set key row) name = if key = name then row.count else hits rows name := by
  simp only [hits, Keyed.get?_set]
  split <;> rfl

theorem hits_eq_getD (rows : Keyed Row) (name : String) :
    hits rows name = ((rows.get? name).getD ⟨0, -1⟩).count := by
  rw [hits]
  cases rows.get? name <;> rfl

theorem Sound.empty : Sound .empty := fun _ _ none => by cases none

theorem Sound.set (sound : Sound rows) (key : String) {count pttl : Int} (counts : 1 ≤ count)
    (lives : pttl = -1 ∨ 1 ≤ pttl) : Sound (rows.set key ⟨count, pttl⟩) := by
  intro name found here
  rw [Keyed.get?_set] at here
  split at here
  case isTrue =>
    obtain rfl := Option.some.inj here
    exact ⟨counts, lives⟩
  case isFalse => exact sound name found here

theorem Sound.hits_nonneg (sound : Sound rows) (name : String) : 0 ≤ hits rows name := by
  cases found : rows.get? name with
  | none => exact Int.le_of_eq (hits_of_no_row found).symm
  | some row =>
      rw [hits_of_row found]
      exact Int.le_trans (by decide) (sound name row found).1

theorem Sound.elapse (sound : Sound rows) (millis : Nat) :
    Sound (rows.mapValues? (Row.after? millis)) := by
  intro name row here
  rw [Keyed.get?_mapValues?, Option.bind_eq_some_iff] at here
  obtain ⟨old, found, kept⟩ := here
  obtain ⟨counts, lives⟩ := sound name old found
  rw [Row.after?] at kept
  split at kept
  case isTrue =>
    obtain rfl := Option.some.inj kept
    exact ⟨counts, lives⟩
  case isFalse =>
    split at kept
    case isTrue => cases kept
    case isFalse alive =>
      obtain rfl := Option.some.inj kept
      exact ⟨counts, .inr (by simp only; omega)⟩

theorem hits_elapse {millis : Nat}
    (lives : ((rows.mapValues? (Row.after? millis)).get? name).isSome) :
    hits (rows.mapValues? (Row.after? millis)) name = hits rows name := by
  obtain ⟨left, there⟩ := Option.isSome_iff_exists.mp lives
  have kept := there
  rw [Keyed.get?_mapValues?, Option.bind_eq_some_iff] at kept
  obtain ⟨row, found, kept⟩ := kept
  rw [hits_of_row there, hits_of_row found, Row.count_of_after? kept]

theorem Grows.refl (rows : Keyed Row) : Grows rows rows :=
  fun _ row found => ⟨row, found, Int.le_refl _⟩

theorem Grows.trans (first : Grows rows rows') (second : Grows rows' rows'') :
    Grows rows rows'' := by
  intro name row found
  obtain ⟨row', found', more⟩ := first name row found
  obtain ⟨row'', found'', more'⟩ := second name row' found'
  exact ⟨row'', found'', Int.le_trans more more'⟩

theorem Grows.set {count : Int} (more : hits rows key ≤ count) (pttl : Int) :
    Grows rows (rows.set key ⟨count, pttl⟩) := by
  intro name old found
  rw [Keyed.get?_set]
  by_cases same : key = name
  · subst same
    rw [hits_of_row found] at more
    exact ⟨_, if_pos rfl, more⟩
  · exact ⟨old, (if_neg same).trans found, Int.le_refl _⟩

theorem Grows.hits_le (grows : Grows rows rows') (sound : Sound rows') (name : String) :
    hits rows name ≤ hits rows' name := by
  cases found : rows.get? name with
  | none =>
      rw [hits_of_no_row found]
      exact sound.hits_nonneg name
  | some row =>
      obtain ⟨row', found', more⟩ := grows name row found
      rw [hits_of_row found, hits_of_row found']
      exact more

end

/-- A lifetime that a request sets lies ahead. -/
def Request.Ahead : Request → Prop
  | expire millis => 1 ≤ millis
  | _ => True

theorem carryOut_sound {rows : Keyed Row} (sound : Sound rows) (key : String) {request : Request}
    (ahead : request.Ahead) :
    Sound (Server.carryOut rows key request).2 ∧
    Grows rows (Server.carryOut rows key request).2 := by
  cases request with
  | lifetime =>
      rw [Server.carryOut_lifetime]
      exact ⟨sound, .refl rows⟩
  | increment =>
      have counted := sound.hits_nonneg key
      have lives : ((rows.get? key).getD ⟨0, -1⟩).pttl = -1 ∨
          1 ≤ ((rows.get? key).getD ⟨0, -1⟩).pttl := by
        cases found : rows.get? key with
        | none => exact .inl rfl
        | some row => exact (sound key row found).2
      have same := hits_eq_getD rows key
      simp only [Server.carryOut]
      split
      case isTrue => exact ⟨sound.set key (by omega) lives, .set (by omega) _⟩
      case isFalse => exact ⟨sound, .refl rows⟩
  | expire millis =>
      have settable : ¬ millis ≤ 0 := fun past => by
        simp only [Request.Ahead] at ahead
        omega
      simp only [Server.carryOut]
      cases found : rows.get? key with
      | none => exact ⟨sound, .refl rows⟩
      | some row =>
          simp only [if_neg settable]
          exact ⟨sound.set key (sound key row found).1 (.inr ahead),
            .set (Int.le_of_eq (hits_of_row found)) _⟩

theorem takeFault_mem {key verb : String} {faults rest : List (String × String × Fault)}
    {fault : Fault} (taken : Server.takeFault key verb faults = some (fault, rest)) :
    (∃ laid ∈ faults, laid.2.2 = fault) ∧ (∀ laid ∈ rest, laid ∈ faults) := by
  induction faults generalizing rest with
  | nil => cases taken
  | cons first others ih =>
      obtain ⟨k, v, f⟩ := first
      simp only [Server.takeFault] at taken
      split at taken
      case isTrue =>
        obtain ⟨rfl, rfl⟩ := Prod.mk.inj (Option.some.inj taken)
        exact ⟨⟨_, List.mem_cons_self, rfl⟩, fun _ member => List.mem_cons_of_mem _ member⟩
      case isFalse =>
        obtain ⟨⟨found, left⟩, later, same⟩ := Option.map_eq_some_iff.mp taken
        obtain ⟨rfl, rfl⟩ := Prod.mk.inj same
        obtain ⟨⟨laid, member, same⟩, fewer⟩ := ih later
        refine ⟨⟨laid, List.mem_cons_of_mem _ member, same⟩, fun _ member => ?_⟩
        rcases List.mem_cons.mp member with rfl | member
        · exact List.mem_cons_self
        · exact List.mem_cons_of_mem _ (fewer _ member)

/-- What a line is after something was sent on it that no more than trouble can have befallen. -/
structure Line.Leads (line line' : Line) : Prop where
  troubled : line'.server.Troubled
  lasting : line.silent → line'.silent
  sound : Sound line'.server.rows
  grows : Grows line.server.rows line'.server.rows

theorem Line.Leads.trans {line line' line'' : Line} (first : line.Leads line')
    (second : line'.Leads line'') :
    line.Leads line'' :=
  ⟨second.troubled, fun silent => second.lasting (first.lasting silent), second.sound,
    first.grows.trans second.grows⟩

/-- The line was heard and is heard, and nothing that was laid down has been used up. -/
structure Line.Unhurt (line line' : Line) : Prop where
  heard : line.silent = false
  heard' : line'.silent = false
  unused : line'.server.faults = line.server.faults

theorem Line.Unhurt.trans {line line' line'' : Line} (first : line.Unhurt line')
    (second : line'.Unhurt line'') :
    line.Unhurt line'' :=
  ⟨first.heard, second.heard', second.unused.trans first.unused⟩

variable {line : Line}

theorem send_leads (troubled : line.server.Troubled) (sound : Sound line.server.rows) (row : String)
    (request : Request) (ahead : request.Ahead) : line.Leads (line.send row request).2 := by
  simp only [Line.send]
  split
  case isTrue => exact ⟨troubled, id, sound, .refl _⟩
  case isFalse heard =>
    simp only [Server.receive]
    split
    case h_1 reply faults taken =>
      exact ⟨fun laid member => troubled laid ((takeFault_mem taken).2 laid member),
        fun silent => absurd silent heard, sound, .refl _⟩
    case h_2 faults taken =>
      exact ⟨fun laid member => troubled laid ((takeFault_mem taken).2 laid member),
        fun silent => absurd silent heard, sound, .refl _⟩
    case h_3 =>
      obtain ⟨sound', grows⟩ := carryOut_sound sound row ahead
      exact ⟨troubled, fun silent => absurd silent heard, sound', grows⟩

theorem send_integer (troubled : line.server.Troubled) {row : String} {request : Request} {n : Int}
    (answered : (line.send row request).1 = some (.integer n)) :
    line.Unhurt (line.send row request).2 ∧
      Server.carryOut line.server.rows row request =
        (.integer n, (line.send row request).2.server.rows) := by
  simp only [Line.send] at answered ⊢
  split at answered
  case isTrue => cases answered
  case isFalse heard =>
    simp only [Server.receive] at answered ⊢
    split at answered
    case h_1 reply faults taken =>
      -- A reply that was laid down is no number.
      obtain ⟨⟨laid, member, same⟩, _⟩ := takeFault_mem taken
      obtain ⟨trouble, trouble_eq⟩ := troubled laid member
      rw [same] at trouble_eq
      cases trouble <;> cases trouble_eq <;> cases answered
    case h_2 => cases answered
    case h_3 =>
      have heard := (Bool.not_eq_true _).mp heard
      have reply : (Server.carryOut line.server.rows row request).1 = .integer n :=
        Option.some.inj answered
      simp only [heard, Bool.false_eq_true, if_false]
      exact ⟨⟨heard, rfl, rfl⟩, Prod.ext reply rfl⟩

namespace Store

variable {store : Store} {key : String} {window : Span}

theorem integer_eq_ok {reply : Reply} {n : Int} (read : integer reply = .ok n) :
    reply = .integer n := by
  cases reply with
  | integer m => rw [Except.ok.inj read]
  | null => cases read
  | complaint text => cases read

theorem increment_line (store : Store) (key : String) (line : Line) :
    (store.increment key line).2 =
      ((line.send (rowName store.space key) .increment).2.send (rowName store.space key)
        .lifetime).2 := by
  simp only [increment]
  split
  · split <;> rfl
  · rfl

theorem increment_eq_ok {hit : Hit} (answered : (store.increment key line).1 = .ok hit) :
    ∃ count lifetime, (line.send (rowName store.space key) .increment).1 = some (.integer count) ∧
      ((line.send (rowName store.space key) .increment).2.send (rowName store.space key)
        .lifetime).1 = some (.integer lifetime) ∧
      hit = ⟨count.toNat, .ofReply lifetime⟩ := by
  simp only [increment] at answered
  split at answered
  case h_2 => cases answered
  case h_1 first second counted asked =>
    split at answered
    case h_1 count lifetime read read' =>
      rw [integer_eq_ok read] at counted
      rw [integer_eq_ok read'] at asked
      exact ⟨count, lifetime, counted, asked, (Except.ok.inj answered).symm⟩
    case h_2 => cases answered
    case h_3 => cases answered

theorem arm_line (short : window.millis ≤ 9223372036854775807) :
    (store.arm key window line).2 =
      (line.send (rowName store.space key) (.expire window.millis)).2 := by
  simp only [arm, short, if_true]
  split <;> rfl

theorem arm_eq_ok {answer : Unit} (answered : (store.arm key window line).1 = .ok answer) :
    window.millis ≤ 9223372036854775807 ∧
      ∃ n, (line.send (rowName store.space key) (.expire window.millis)).1 = some (.integer n) := by
  simp only [arm] at answered
  split at answered
  case isFalse => cases answered
  case isTrue short =>
    split at answered
    case h_1 n read =>
      obtain ⟨reply, sent, read⟩ := Option.map_eq_some_iff.mp read
      exact ⟨short, n, integer_eq_ok read ▸ sent⟩
    case h_2 => cases answered
    case h_3 => cases answered

theorem remaining_line (store : Store) (key : String) (line : Line) :
    (store.remaining key line).2 = (line.send (rowName store.space key) .lifetime).2 := by
  simp only [remaining]
  split <;> rfl

theorem remaining_eq_ok {ttl : Ttl} (answered : (store.remaining key line).1 = .ok ttl) :
    ∃ n, (line.send (rowName store.space key) .lifetime).1 = some (.integer n) ∧
      ttl = .ofReply n := by
  simp only [remaining] at answered
  split at answered
  case h_1 n read =>
    obtain ⟨reply, sent, read⟩ := Option.map_eq_some_iff.mp read
    exact ⟨n, integer_eq_ok read ▸ sent, (Except.ok.inj answered).symm⟩
  case h_2 => cases answered
  case h_3 => cases answered

theorem onRows_increment {rows rows' : Keyed Row} {n : Int} (window : Span)
    (counted : Server.carryOut rows (rowName store.space key) .increment = (.integer n, rows')) :
    store.onRows (.increment key window) rows =
      (.ok ⟨n.toNat, .ofReply (((rows'.get? (rowName store.space key)).map Row.pttl).getD (-2))⟩,
        rows') := by
  simp only [Server.carryOut] at counted
  split at counted
  case isTrue room =>
    obtain ⟨same, rfl⟩ := Prod.mk.inj counted
    obtain rfl := Reply.integer.inj same
    simp only [onRows, room, if_true, Keyed.get?_set, Option.map_some, Option.getD_some]
  case isFalse => cases counted

theorem handle_leads (store : Store) (troubled : line.server.Troubled)
    (sound : Sound line.server.rows) {command : Command} (coarse : command.Coarse) :
    line.Leads (store.handle command line).2 := by
  cases command with
  | increment key window =>
      have first := send_leads troubled sound (rowName store.space key) .increment trivial
      have second :=
        send_leads first.troubled first.sound (rowName store.space key) .lifetime trivial
      rw [handle, increment_line]
      exact first.trans second
  | arm key window =>
      by_cases short : window.millis ≤ 9223372036854775807
      · rw [handle, arm_line short]
        exact send_leads troubled sound _ _ (Int.ofNat_le.mpr coarse)
      · simp only [handle, arm, short, if_false]
        exact ⟨troubled, id, sound, .refl _⟩
  | remaining key =>
      rw [handle, remaining_line]
      exact send_leads troubled sound _ .lifetime trivial

theorem handle_eq_ok (troubled : line.server.Troubled) (sound : Sound line.server.rows)
    {command : Command} {answer : command.Answer}
    (answered : (store.handle command line).1 = .ok answer) :
    line.Unhurt (store.handle command line).2 ∧
      store.onRows command line.server.rows =
        (.ok answer, (store.handle command line).2.server.rows) := by
  cases command with
  | increment key window =>
      obtain ⟨count, lifetime, counted, asked, rfl⟩ := increment_eq_ok answered
      have between := send_leads troubled sound (rowName store.space key) .increment trivial
      obtain ⟨unhurt, first⟩ := send_integer troubled counted
      obtain ⟨unhurt', second⟩ := send_integer between.troubled asked
      rw [Server.carryOut_lifetime] at second
      obtain ⟨lives, same⟩ := Prod.mk.inj second
      rw [handle, increment_line, onRows_increment window first, Reply.integer.inj lives, ← same]
      exact ⟨unhurt.trans unhurt', rfl⟩
  | arm key window =>
      obtain ⟨short, n, set⟩ := arm_eq_ok answered
      obtain ⟨unhurt, carried⟩ := send_integer troubled set
      rw [handle, arm_line short, onRows, if_pos short, carried]
      exact ⟨unhurt, rfl⟩
  | remaining key =>
      obtain ⟨n, asked, rfl⟩ := remaining_eq_ok answered
      obtain ⟨unhurt, carried⟩ := send_integer troubled asked
      rw [Server.carryOut_lifetime] at carried
      obtain ⟨lives, same⟩ := Prod.mk.inj carried
      rw [handle, remaining_line, onRows, Reply.integer.inj lives, ← same]
      exact ⟨unhurt, rfl⟩

variable {rows rows' : Keyed Row}

theorem increment_onRows {hit : Hit}
    (carried : store.onRows (.increment key window) rows = (.ok hit, rows')) :
    hit = ⟨(((rows.get? (rowName store.space key)).getD ⟨0, -1⟩).count + 1).toNat,
      .ofReply ((rows.get? (rowName store.space key)).getD ⟨0, -1⟩).pttl⟩ ∧
    rows' = rows.set (rowName store.space key)
      ⟨((rows.get? (rowName store.space key)).getD ⟨0, -1⟩).count + 1,
        ((rows.get? (rowName store.space key)).getD ⟨0, -1⟩).pttl⟩ := by
  simp only [onRows] at carried
  split at carried
  case isFalse => cases carried
  case isTrue =>
    obtain ⟨answer, rows⟩ := Prod.mk.inj carried
    exact ⟨(Except.ok.inj answer).symm, rows.symm⟩

theorem hits_of_increment (sound : Sound rows) {hit : Hit}
    (carried : store.onRows (.increment key window) rows = (.ok hit, rows')) :
    (∀ name, hits rows' name = hits rows name + if rowName store.space key = name then 1 else 0) ∧
      (hit.count : Int) = hits rows (rowName store.space key) + 1 ∧ hit.ttl ≠ .gone := by
  have counted := sound.hits_nonneg (rowName store.space key)
  have same := hits_eq_getD rows (rowName store.space key)
  obtain ⟨rfl, rfl⟩ := increment_onRows carried
  refine ⟨fun name => ?_, by simp only; omega, ?_⟩
  · rw [hits_set]
    split
    case isTrue here =>
      rw [← here]
      simp only
      omega
    case isFalse => exact (Int.add_zero _).symm
  · cases found : rows.get? (rowName store.space key) with
    | none => simp [Ttl.ofReply]
    | some row =>
        rcases (sound _ row found).2 with unarmed | alive
        · simp [Ttl.ofReply, unarmed]
        · have armed : ¬ row.pttl = -1 := by omega
          have running : 0 < row.pttl := by omega
          simp [Ttl.ofReply, armed, running]

theorem rows_of_refused {e : StoreError}
    (refused : store.onRows (.increment key window) rows = (.error e, rows')) : rows' = rows := by
  simp only [onRows] at refused
  split at refused
  case isTrue => cases refused
  case isFalse => exact (Prod.mk.inj refused).2.symm

theorem hits_of_arm (settable : 1 ≤ window.millis) {answer : Unit}
    (carried : store.onRows (.arm key window) rows = (.ok answer, rows')) (name : String) :
    hits rows' name = hits rows name := by
  have ahead : ¬ (window.millis : Int) ≤ 0 := by omega
  simp only [onRows] at carried
  split at carried
  case isFalse => cases carried
  case isTrue =>
    obtain ⟨_, rfl⟩ := Prod.mk.inj carried
    simp only [Server.carryOut]
    cases found : rows.get? (rowName store.space key) with
    | none => rfl
    | some row =>
        simp only [if_neg ahead, hits_set]
        split
        case isTrue here => rw [← here, hits_of_row found]
        case isFalse => rfl

end Store

end Remote

end LinkGuard

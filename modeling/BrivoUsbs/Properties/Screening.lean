import BrivoUsbs.Contracts.World

/-!
# Screening of USBS movements

Every call that moves USBS, by even a zero amount, runs the hook of the token over a source and a
destination, one of which is zero for a mint or a burn.  `exec_effect` reads the two off the
call: the hook has let them pass, and nobody else's balance changes.

The hook asks about the caller only if it is neither of the two.  `exec_screens` says that this
leaves nobody out: every participant of a movement has been screened.
-/

namespace BrivoUsbs

namespace ERC20

variable {token token' : ERC20} {hook : Hook} {a b c : Address} {amount : Uint256}

/-! ## Whose balance an operation changes -/

lemma internalTransfer_frame (h : token.internalTransfer hook a b amount = .ok token')
    (ha : c ≠ a) (hb : c ≠ b) : token'.balances c = token.balances c := by
  simp only [internalTransfer, bind_eq_ok, require_eq_ok, pure_eq_ok, exists_const] at h
  obtain ⟨-, -, _, -, -, balance, -, rfl⟩ := h
  simp only [Function.update_of_ne ha, Function.update_of_ne hb]

lemma internalBurn_frame (h : token.internalBurn hook a amount = .ok token') (ha : c ≠ a) :
    token'.balances c = token.balances c := by
  simp only [internalBurn, bind_eq_ok, require_eq_ok, pure_eq_ok, exists_const] at h
  obtain ⟨-, _, -, -, supply, -, rfl⟩ := h
  simp only [Function.update_of_ne ha]

end ERC20

namespace USBS

variable {token token' : USBS} {lists : Lists} {sender source dest account : Address}
  {amount : Uint256}

/-! ## The hook -/

/-- What the three lists must answer about a party. -/
structure Screened (token : USBS) (lists : Lists) (account : Address) : Prop where
  not_blocked : token.isBlocked lists account = .ok false
  not_sanctioned : token.isSanctioned lists account = .ok false
  allowed : token.isAllowed lists account = .ok true

lemma screen_eq_ok {party : String} {u : Unit} :
    token.screen lists party account = .ok u ↔ token.Screened lists account := by
  simp only [screen, bind_eq_ok, require_eq_ok, exists_const]
  constructor
  · rintro ⟨_, hblocked, rfl, _, hsanctioned, rfl, _, hallowed, rfl⟩
    exact ⟨hblocked, hsanctioned, hallowed⟩
  · rintro ⟨hblocked, hsanctioned, hallowed⟩
    exact ⟨_, hblocked, rfl, _, hsanctioned, rfl, _, hallowed, rfl⟩

/-- What the hook asks of the parties of a movement. -/
structure Passes (token : USBS) (lists : Lists) (sender source dest : Address) : Prop where
  not_paused : token.paused = false
  sender : source ≠ sender → dest ≠ sender → token.Screened lists sender
  source : source ≠ 0 → token.Screened lists source
  dest : dest ≠ 0 → token.Screened lists dest

lemma beforeTokenTransfer_eq_ok {u : Unit} :
    token.beforeTokenTransfer lists sender source dest amount = .ok u ↔
      token.Passes lists sender source dest := by
  simp only [beforeTokenTransfer, bind_eq_ok, require_eq_ok, onlyWhen_eq_ok, exists_const,
    screen_eq_ok]
  constructor
  · rintro ⟨hpaused, hsender, hsource, hdest⟩
    exact ⟨hpaused, fun hs hd => hsender ⟨hs, hd⟩, hsource, hdest⟩
  · rintro ⟨hpaused, hsender, hsource, hdest⟩
    exact ⟨hpaused, fun hne => hsender hne.1 hne.2, hsource, hdest⟩

/-! ## The parties of a call -/

/-- The source and the destination of the movement a call makes. -/
def Call.parties (msgSender : Address) : Call → Option (Address × Address)
  | .holder call => call.parties msgSender
  | .mint dest _ => some (0, dest)
  | _ => none

/-- The movement from `source` to `dest` passes the hook, and changes no other balance. -/
structure Movement (token : USBS) (lists : Lists) (sender source dest : Address)
    (token' : USBS) : Prop where
  passes : token.Passes lists sender source dest
  frame : ∀ account, (source ≠ 0 → account ≠ source) → (dest ≠ 0 → account ≠ dest) →
    token'.erc20.balances account = token.erc20.balances account

/-- What a call with these parties does to the balances. -/
inductive Effect (token : USBS) (lists : Lists) (sender : Address) (token' : USBS) :
    Option (Address × Address) → Prop
  | idle (hsame : token'.erc20.balances = token.erc20.balances) :
      Effect token lists sender token' none
  | moves {source dest : Address} (hmoves : token.Movement lists sender source dest token') :
      Effect token lists sender token' (some (source, dest))

lemma mint_movement (h : token.mint lists sender dest amount = .ok token') :
    token.Movement lists sender 0 dest token' := by
  simp only [mint, bind_eq_ok, require_eq_ok, pure_eq_ok, exists_const] at h
  obtain ⟨-, minted, hmint, rfl⟩ := h
  obtain ⟨hdest, hhook, -, -, hother, -⟩ := ERC20.internalMint_spec hmint
  exact ⟨beforeTokenTransfer_eq_ok.mp hhook, fun account _ hne => hother account (hne hdest)⟩

lemma internalBurn_movement {erc20 erc20' : ERC20} (hsame : erc20.balances = token.erc20.balances)
    (h : erc20.internalBurn (token.beforeTokenTransfer lists sender) source amount = .ok erc20') :
    token.Movement lists sender source 0 { token with erc20 := erc20' } := by
  obtain ⟨hsource, hhook, -⟩ := ERC20.internalBurn_spec h
  refine ⟨beforeTokenTransfer_eq_ok.mp hhook, fun account hne _ => ?_⟩
  rw [← hsame]
  exact ERC20.internalBurn_frame h (hne hsource)

lemma internalTransfer_movement {erc20 erc20' : ERC20}
    (hsame : erc20.balances = token.erc20.balances)
    (h : erc20.internalTransfer (token.beforeTokenTransfer lists sender) source dest amount =
      .ok erc20') :
    token.Movement lists sender source dest { token with erc20 := erc20' } := by
  obtain ⟨hsource, hdest, hhook, -⟩ := ERC20.internalTransfer_spec h
  refine ⟨beforeTokenTransfer_eq_ok.mp hhook, fun account hne hne' => ?_⟩
  rw [← hsame]
  exact ERC20.internalTransfer_frame h (hne hsource) (hne' hdest)

lemma burnFrom_movement (h : token.burnFrom lists sender source amount = .ok token') :
    token.Movement lists sender source 0 token' := by
  simp only [burnFrom, bind_eq_ok, pure_eq_ok] at h
  obtain ⟨spent, hspent, burned, hburned, rfl⟩ := h
  exact internalBurn_movement (ERC20.spendAllowance_spec hspent).1 hburned

/-- **Each call of the token moves between its parties, if it moves anything.** -/
lemma exec_effect {call : Call} (h : token.exec lists sender call = .ok token') :
    token.Effect lists sender token' (call.parties sender) := by
  cases call with
  | holder call =>
      obtain ⟨erc20, rfl, hoperates⟩ := execHolder_operates h
      rw [Call.parties]
      generalize call.parties sender = parties at hoperates ⊢
      cases hoperates with
      | approves happroves => exact .idle happroves.1
      | transfers hspent hmoved => exact .moves (internalTransfer_movement hspent.1 hmoved)
      | burns hspent hburned => exact .moves (internalBurn_movement hspent.1 hburned)
  | mint dest amount => exact .moves (mint_movement h)
  | access call =>
      simp only [exec, bind_eq_ok, pure_eq_ok] at h
      obtain ⟨access, -, rfl⟩ := h
      exact .idle rfl
  | _ =>
      simp only [exec, pause, unpause, setBlocklist, setAllowlist, setSanctionsList, bind_eq_ok,
        pure_eq_ok] at h
      obtain ⟨_, -, _, -, rfl⟩ := h
      exact .idle rfl

/-! ## Every participant is screened -/

/-- A caller is screened as such, or else as the source or the destination. -/
lemma Passes.screened_sender (h : token.Passes lists sender source dest) (hsender : sender ≠ 0) :
    token.Screened lists sender := by
  by_cases hsource : source = sender
  · exact hsource ▸ h.source (hsource ▸ hsender)
  · by_cases hdest : dest = sender
    · exact hdest ▸ h.dest (hdest ▸ hsender)
    · exact h.sender hsource hdest

/-- Who takes part in the movement a holder's call makes: the caller, the source, and the
destination unless it is a burn. -/
def HolderCall.participants (msgSender : Address) : HolderCall → Option (List Address)
  | .transfer dest _ => some [msgSender, dest]
  | .transferFrom source dest _ => some [msgSender, source, dest]
  | .burn _ => some [msgSender]
  | .burnFrom account _ => some [msgSender, account]
  | .adminBurn source _ => some [msgSender, source]
  | .approve .. | .increaseAllowance .. | .decreaseAllowance .. => none

/-- Who takes part in the movement a call makes, if it makes one. -/
def Call.participants (msgSender : Address) : Call → Option (List Address)
  | .holder call => call.participants msgSender
  | .mint dest _ => some [msgSender, dest]
  | _ => none

lemma internalTransfer_screens {erc20 erc20' : ERC20} (hsender : sender ≠ 0)
    (h : erc20.internalTransfer (token.beforeTokenTransfer lists sender) source dest amount =
      .ok erc20') :
    token.paused = false ∧ token.Screened lists sender ∧ token.Screened lists source ∧
      token.Screened lists dest := by
  obtain ⟨hsource, hdest, hhook, -⟩ := ERC20.internalTransfer_spec h
  have hpasses := beforeTokenTransfer_eq_ok.mp hhook
  exact ⟨hpasses.not_paused, hpasses.screened_sender hsender, hpasses.source hsource,
    hpasses.dest hdest⟩

lemma internalBurn_screens {erc20 erc20' : ERC20} (hsender : sender ≠ 0)
    (h : erc20.internalBurn (token.beforeTokenTransfer lists sender) source amount = .ok erc20') :
    token.paused = false ∧ token.Screened lists sender ∧ token.Screened lists source := by
  obtain ⟨hsource, hhook, -⟩ := ERC20.internalBurn_spec h
  have hpasses := beforeTokenTransfer_eq_ok.mp hhook
  exact ⟨hpasses.not_paused, hpasses.screened_sender hsender, hpasses.source hsource⟩

lemma mint_screens (hsender : sender ≠ 0) (h : token.mint lists sender dest amount = .ok token') :
    token.paused = false ∧ token.Screened lists sender ∧ token.Screened lists dest := by
  simp only [mint, bind_eq_ok, require_eq_ok, pure_eq_ok, exists_const] at h
  obtain ⟨-, minted, hmint, rfl⟩ := h
  obtain ⟨hdest, hhook, -⟩ := ERC20.internalMint_spec hmint
  have hpasses := beforeTokenTransfer_eq_ok.mp hhook
  exact ⟨hpasses.not_paused, hpasses.screened_sender hsender, hpasses.dest hdest⟩

/-- **Every participant of a movement is screened**, by the lists the token has at that moment
and whoever coincides with whom.  Nobody calls from the zero address. -/
theorem exec_screens {call : Call} {participants : List Address} (hsender : sender ≠ 0)
    (hmoves : call.participants sender = some participants)
    (h : token.exec lists sender call = .ok token') :
    token.paused = false ∧ ∀ account ∈ participants, token.Screened lists account := by
  cases call with
  | holder call =>
      cases call with
      | transfer dest amount =>
          simp only [exec, execHolder, transfer, ERC20.transfer, bind_eq_ok, pure_eq_ok] at h
          obtain ⟨moved, hmoved, rfl⟩ := h
          obtain ⟨hpaused, hcaller, -, hdest⟩ := internalTransfer_screens hsender hmoved
          obtain rfl := Option.some.inj hmoves
          exact ⟨hpaused, by simp [hcaller, hdest]⟩
      | transferFrom source dest amount =>
          simp only [exec, execHolder, transferFrom, ERC20.transferFrom, bind_eq_ok,
            pure_eq_ok] at h
          obtain ⟨moved, ⟨spent, -, hmoved⟩, rfl⟩ := h
          obtain ⟨hpaused, hcaller, hsource, hdest⟩ := internalTransfer_screens hsender hmoved
          obtain rfl := Option.some.inj hmoves
          exact ⟨hpaused, by simp [hcaller, hsource, hdest]⟩
      | burn amount =>
          simp only [exec, execHolder, burn, bind_eq_ok, pure_eq_ok] at h
          obtain ⟨burned, hburned, rfl⟩ := h
          obtain ⟨hpaused, hcaller, -⟩ := internalBurn_screens hsender hburned
          obtain rfl := Option.some.inj hmoves
          exact ⟨hpaused, by simp [hcaller]⟩
      | burnFrom account amount =>
          simp only [exec, execHolder, burnFrom, bind_eq_ok, pure_eq_ok] at h
          obtain ⟨spent, -, burned, hburned, rfl⟩ := h
          obtain ⟨hpaused, hcaller, hsource⟩ := internalBurn_screens hsender hburned
          obtain rfl := Option.some.inj hmoves
          exact ⟨hpaused, by simp [hcaller, hsource]⟩
      | adminBurn source amount =>
          simp only [exec, execHolder, adminBurn, bind_eq_ok, pure_eq_ok] at h
          obtain ⟨_, -, burned, hburned, rfl⟩ := h
          obtain ⟨hpaused, hcaller, hsource⟩ := internalBurn_screens hsender hburned
          obtain rfl := Option.some.inj hmoves
          exact ⟨hpaused, by simp [hcaller, hsource]⟩
      | _ => cases hmoves
  | mint dest amount =>
      obtain ⟨hpaused, hcaller, hdest⟩ := mint_screens hsender h
      obtain rfl := Option.some.inj hmoves
      exact ⟨hpaused, by simp [hcaller, hdest]⟩
  | _ => cases hmoves

open Sample in
/-- A transfer of nothing between two others screens all three of them. -/
theorem exec_screens_sample :
    Sample.usbs.paused = false ∧
      ∀ account ∈ [operator, customer, 0x54], Sample.usbs.Screened Sample.lists account :=
  @exec_screens _ _ _ _ (.holder (.transferFrom customer 0x54 0)) _ (by decide) rfl
    (eq_ok_get (x := Sample.usbs.exec Sample.lists operator
      (.holder (.transferFrom customer 0x54 0))) (by decide +kernel))

/-! ## Listed accounts -/

/-- The lists of the token report the account as blocked or as sanctioned. -/
def Listed (token : USBS) (lists : Lists) (account : Address) : Prop :=
  token.isBlocked lists account = .ok true ∨ token.isSanctioned lists account = .ok true

instance (token : USBS) (lists : Lists) (account : Address) :
    Decidable (token.Listed lists account) :=
  inferInstanceAs (Decidable (_ ∨ _))

lemma Screened.not_listed (h : token.Screened lists account) : ¬ token.Listed lists account := by
  rintro (hblocked | hsanctioned)
  · rw [h.not_blocked] at hblocked
    cases hblocked
  · rw [h.not_sanctioned] at hsanctioned
    cases hsanctioned

lemma mint_listed (h : token.mint lists sender dest amount = .ok token') :
    token'.Listed lists account ↔ token.Listed lists account := by
  simp only [mint, bind_eq_ok, require_eq_ok, pure_eq_ok, exists_const] at h
  obtain ⟨-, minted, -, rfl⟩ := h
  rfl

/-- A movement leaves the balance of a listed account alone. -/
lemma Movement.balance_eq (h : token.Movement lists sender source dest token')
    (hlisted : token.Listed lists account) :
    token'.erc20.balances account = token.erc20.balances account := by
  refine h.frame account (fun hsource heq => ?_) (fun hdest heq => ?_)
  · exact (heq ▸ h.passes.source hsource).not_listed hlisted
  · exact (heq ▸ h.passes.dest hdest).not_listed hlisted

/-- A listed account moves nothing. -/
lemma Passes.not_listed (h : token.Passes lists sender source dest) (hsender : sender ≠ 0) :
    ¬ token.Listed lists sender :=
  (h.screened_sender hsender).not_listed

end USBS

end BrivoUsbs

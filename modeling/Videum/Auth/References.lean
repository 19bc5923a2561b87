import Videum.Auth.Serial
import Videum.Auth.Users

/-!
# Users that are referenced

A verification token references the user it was issued to.  The reference
keeps the user in its table, and it is the only way to a confirmed address: a
save that confirms a user has read a token of that user.

## Main results

* `tokenOwners_of_reachable` — every verification token has its user.
* `confirmed_exec` — who is confirmed after a call was so before, or has a
  token.
* `referenced_of_confirmed` — a user that was confirmed in the run is
  referenced.
-/

namespace Videum.Auth

open Videum.Async
open Videum.Common

/-- Every verification token has its user. -/
def TokenOwners (s : Store) : Prop :=
  ∀ r ∈ s.verification_tokens.rows, s.hasUser r.user_id

theorem TokenOwners.exec {m : Moment} {op : AuthOp} {s : Store}
    (h : TokenOwners s) (hages : op.AgesTokens s) :
    TokenOwners (Store.exec m op s).2 := by
  intro r' hr'
  rcases (tokens_exec m op hages).origin r' hr' with ⟨r, hr, hlater⟩ | hadded
  · rw [hlater.user_id]
    exact hasUser_exec (h r hr) (referenced_of_token hr)
  · obtain ⟨v, hv, rfl⟩ := Option.map_eq_some_iff.1 hadded
    have hop := AuthOp.eq_of_addedToken hv
    subst hop
    cases hu : s.userById v.user_id with
    | none =>
        simp only [Store.exec, Store.insertVerificationToken, hu] at hv
        cases hv
    | some u =>
        simp only [Store.exec, Store.insertVerificationToken, hu]
        exact Store.hasUser_iff.2 ⟨u, hu⟩

/-- A consumer reads a token that is still there, of the user it saves. -/
theorem token_of_saved {s : Store} {log : AuthLog} {t : Nat}
    {request : AuthRequest} {w : UserEntity} (hinv : Tokens s log)
    (hread : ∀ x ∈ log, ∀ r u, ReadUnused x r u → u.id = r.user_id)
    (hlaw : Consuming log t request (.saveUser w)) :
    ∃ r ∈ s.verification_tokens.rows, r.user_id = w.id := by
  obtain ⟨⟨x, hx, r, u, hunused, hstores⟩, _⟩ := hlaw
  have hxlog := (mem_own.1 hx).1
  obtain ⟨r', hr', hlater⟩ := hinv.known x hxlog r
    (AuthOp.knownToken_of_found hunused.found)
  refine ⟨r', hr', ?_⟩
  rw [hlater.user_id, hstores.same.1, hread x hxlog r u hunused]

/-- Who is confirmed after a call was confirmed before it, or has a token. -/
theorem confirmed_exec {m : Moment} {op : AuthOp} {s : Store}
    (haddress : ∀ w, op = .saveUser w →
      ∀ row ∈ s.users.rows, row.id = w.id → row.email = w.email)
    (htoken : ∀ w, op = .saveUser w →
      ∃ r ∈ s.verification_tokens.rows, r.user_id = w.id)
    {row' : User} (hrow' : row' ∈ (Store.exec m op s).2.users.rows)
    (hconfirmed : row'.is_confirmed = true) :
    (∃ row ∈ s.users.rows, row.id = row'.id ∧ row.is_confirmed = true) ∨
    ∃ r ∈ s.verification_tokens.rows, r.user_id = row'.id := by
  rcases users_origin haddress hrow' with
    ⟨row, hrow, hid, _, hfrom⟩ | ⟨_, _, _, _, _, hnot⟩
  · rcases hfrom hconfirmed with hold | ⟨w, hop, hwid, _⟩
    · exact .inl ⟨row, hrow, hid.symm, hold⟩
    · obtain ⟨r, hr, huser⟩ := htoken w hop
      exact .inr ⟨r, hr, huser.trans (hwid.trans hid.symm)⟩
  · rw [hnot] at hconfirmed
    exact nomatch hconfirmed

/-- Whoever is confirmed has a token, the users before the primary key `n`
apart. -/
def ConfirmedByToken (n : Nat) (s : Store) : Prop :=
  ∀ u ∈ s.users.rows, u.is_confirmed = true → n ≤ u.id →
    ∃ r ∈ s.verification_tokens.rows, r.user_id = u.id

theorem ConfirmedByToken.exec {m : Moment} {op : AuthOp} {s : Store} {n : Nat}
    (h : ConfirmedByToken n s) (hages : op.AgesTokens s)
    (haddress : ∀ w, op = .saveUser w →
      ∀ row ∈ s.users.rows, row.id = w.id → row.email = w.email)
    (htoken : ∀ w, op = .saveUser w →
      ∃ r ∈ s.verification_tokens.rows, r.user_id = w.id) :
    ConfirmedByToken n (Store.exec m op s).2 := by
  intro u' hu' hconfirmed hnew
  have hbefore : ∃ r ∈ s.verification_tokens.rows, r.user_id = u'.id := by
    rcases confirmed_exec haddress htoken hu' hconfirmed with
      ⟨u, hu, hid, hold⟩ | hread
    · rw [← hid] at hnew ⊢
      exact h u hu hold hnew
    · exact hread
  obtain ⟨r, hr, huser⟩ := hbefore
  obtain ⟨r', hr', hlater⟩ := (tokens_exec m op hages).kept r hr
  exact ⟨r', hr', hlater.user_id.trans huser⟩

section Runs

variable {cfg : AuthConfig} {P : AuthPolicy} {s₀ : Store} {c : AuthRun}

theorem tokenOwners_of_reachable
    (hstart : s₀.verification_tokens.Distinct VerificationToken.token_hash)
    (howners : TokenOwners s₀) (h : Reachable (authSystem cfg) P s₀ c) :
    TokenOwners c.state := by
  apply h.answers (fun s _ => TokenOwners s) howners
  intro b b' t request m op fault hb hb' hinv _ hlog
  have hlaw : Consuming b.log t request op :=
    (tokens_of_reachable hstart hb').1.2.newest hlog
  cases fault with
  | some e => exact hinv
  | none => exact hinv.exec (hlaw.ages (tokens_of_reachable hstart hb).1.1)

/-- A save has behind it a token of the user that is still there. -/
theorem token_of_lawful
    (hstart : s₀.verification_tokens.Distinct VerificationToken.token_hash)
    (h : Reachable (authSystem cfg) P s₀ c) {t : Nat} {request : AuthRequest}
    {w : UserEntity} (hlaw : Consuming c.log t request (.saveUser w)) :
    ∃ r ∈ c.state.verification_tokens.rows, r.user_id = w.id := by
  apply token_of_saved (tokens_of_reachable hstart h).1.1 ?_ hlaw
  intro x hx r u hread
  obtain ⟨_, _, _, _, _, huser⟩ := readUnused_before hstart h hx hread
  exact huser

/-- Whoever was confirmed in the run has a token. -/
theorem confirmedByToken_of_reachable
    (hstart : s₀.verification_tokens.Distinct VerificationToken.token_hash)
    (h : Reachable (authSystem cfg) P s₀ c) :
    ConfirmedByToken s₀.users.nextId c.state := by
  apply h.answers (fun s _ => ConfirmedByToken s₀.users.nextId s)
  · intro u hu _ hnew
    have hlt := s₀.users.keys_lt u hu
    omega
  · intro b b' t request m op fault hb hb' hinv _ hlog
    have hlaw : Consuming b.log t request op :=
      (tokens_of_reachable hstart hb').1.2.newest hlog
    cases fault with
    | some e => exact hinv
    | none =>
        apply hinv.exec (hlaw.ages (tokens_of_reachable hstart hb).1.1)
        · rintro w rfl
          exact (addresses_of_reachable hstart hb).saved hlaw
        · rintro w rfl
          exact token_of_lawful hstart hb hlaw

/-- A user that was confirmed in the run is referenced. -/
theorem referenced_of_confirmed
    (hstart : s₀.verification_tokens.Distinct VerificationToken.token_hash)
    (h : Reachable (authSystem cfg) P s₀ c) {u : User}
    (hu : u ∈ c.state.users.rows) (hconfirmed : u.is_confirmed = true)
    (hnew : s₀.users.nextId ≤ u.id) : c.state.referenced u.id = true := by
  obtain ⟨r, hr, huser⟩ :=
    confirmedByToken_of_reachable hstart h u hu hconfirmed hnew
  rw [← huser]
  exact referenced_of_token hr

end Runs

end Videum.Auth

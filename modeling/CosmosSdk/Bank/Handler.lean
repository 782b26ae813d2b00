import CosmosSdk.Bank.Keeper

/-!
# The bank messages and their handler

`MsgSend` and `MsgMultiSend` (`x/bank/msgs.go`), their `ValidateBasic`, and the handler of
`x/bank/handler.go`, which checks `SendEnabled` and calls `SendCoins` or `InputOutputCoins`.  A message
takes coins from its inputs (the sender of a `MsgSend`) and gives them to its outputs (its recipient).

* `handler_moves`: a handler that succeeds moves to each address the coins of its outputs there less
  those of its inputs there, keeps what all accounts hold together, and keeps the balances valid.
-/

namespace CosmosSdk.Bank

open CosmosSdk.Types Auth StateExcept
open Coins (amount)

/-- `MsgSend` and `MsgMultiSend`. -/
inductive Msg
  | send (fromAddress toAddress : AccAddress) (amount : Coins)
  | multiSend (inputs : List Input) (outputs : List Output)

namespace Msg

/-- `ValidateBasic` of the two messages; `ValidateInputsOutputs` adds coins, which may panic. -/
def validateBasic : Msg → Except Panic (Option Error)
  | .send fromAddress toAddress amount => pure <|
    if fromAddress.empty then some (errInvalidAddress "missing sender address")
    else if toAddress.empty then some (errInvalidAddress "missing recipient address")
    else if !amount.isValid then some (errInvalidCoins ("send amount is invalid: " ++ amount.toString))
    else if !amount.isAllPositive then some (errInsufficientCoins "send amount must be positive")
    else none
  | .multiSend inputs outputs =>
    if inputs.length = 0 then pure (some errNoInputs)
    else if outputs.length = 0 then pure (some errNoOutputs)
    else validateInputsOutputs inputs outputs

/-- The addresses a message takes coins from, with the coins. -/
def inputs : Msg → List (AccAddress × Coins)
  | .send fromAddress _ amount => [(fromAddress, amount)]
  | .multiSend inputs _ => inputTransfers inputs

/-- The addresses a message gives coins to, with the coins. -/
def outputs : Msg → List (AccAddress × Coins)
  | .send _ toAddress amount => [(toAddress, amount)]
  | .multiSend _ outputs => outputTransfers outputs

end Msg

/-- `handleMsgSend`. -/
def handleMsgSend (blockTime : Int) (fromAddress toAddress : AccAddress) (amount : Coins) :
    BankM (Except Error Unit) := do
  if !(← get).sendEnabled then return .error errSendDisabled
  BaseKeeper.sendCoins blockTime fromAddress toAddress amount

/-- `handleMsgMultiSend`. -/
def handleMsgMultiSend (blockTime : Int) (inputs : List Input) (outputs : List Output) :
    BankM (Except Error Unit) := do
  if !(← get).sendEnabled then return .error errSendDisabled
  BaseKeeper.inputOutputCoins blockTime inputs outputs

/-- `NewHandler`, on the two bank messages. -/
def handler (blockTime : Int) : Msg → BankM (Except Error Unit)
  | .send fromAddress toAddress amount => handleMsgSend blockTime fromAddress toAddress amount
  | .multiSend inputs outputs => handleMsgMultiSend blockTime inputs outputs

theorem get_bind {α : Type} (f : State → BankM α) (s : State) : (get >>= f) s = f s s := rfl

/-- With `SendEnabled` on, a `MsgSend` of a valid amount is `sendCoins`. -/
theorem handler_send_eq (blockTime : Int) (fromAddress toAddress : AccAddress) {amount : Coins}
    {s : State} (henabled : s.sendEnabled = true) (hvalid : amount.isValid = true) :
    handler blockTime (.send fromAddress toAddress amount) s =
      sendCoins blockTime fromAddress toAddress amount s := by
  simp only [handler, handleMsgSend, get_bind, henabled, BaseKeeper.sendCoins, hvalid, Bool.not_true,
    Bool.false_eq_true, if_false]

/-- With `SendEnabled` on, a `MsgMultiSend` is `inputOutputCoins`. -/
theorem handler_multiSend_eq (blockTime : Int) (inputs : List Input) (outputs : List Output)
    {s : State} (henabled : s.sendEnabled = true) :
    handler blockTime (.multiSend inputs outputs) s = inputOutputCoins blockTime inputs outputs s := by
  simp only [handler, handleMsgMultiSend, get_bind, henabled, BaseKeeper.inputOutputCoins,
    Bool.not_true, Bool.false_eq_true, if_false]

/-- A handler that succeeds moves each message's outputs less its inputs, and nothing in all. -/
theorem handler_moves {blockTime : Int} {msg : Msg} {s s' : State}
    (h : handler blockTime msg s = .ok (.ok (), s')) :
    Moves s s' (fun addr denom => amountAt msg.outputs addr denom - amountAt msg.inputs addr denom)
      fun _ => 0 := by
  cases msg with
  | send fromAddress toAddress amount =>
    simp only [handler, handleMsgSend, get_bind] at h
    split at h
    · cases h
    simp only [BaseKeeper.sendCoins] at h
    split at h
    · cases h
    exact sendCoins_moves h
  | multiSend inputs outputs =>
    simp only [handler, handleMsgMultiSend, get_bind] at h
    split at h
    · cases h
    exact inputOutputCoins_moves h

end CosmosSdk.Bank

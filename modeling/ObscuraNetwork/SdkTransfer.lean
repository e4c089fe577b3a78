import ObscuraNetwork.PendingSpend
import ObscuraNetwork.SdkNotes

namespace ObscuraNetwork

namespace Sdk

section Transfer

variable {sha256 : Bytes → Bytes32} {leaves : List Commitment}
  {inputNotes outputs : List ShieldedNote} {spends : List Spend} {outputAmounts : List Int} {draw : Nat → Bytes32 × Bytes32}
  {call : TransferCall}

end Transfer

end Sdk

end ObscuraNetwork

import GateGrid.Circuit.Standard
import GateGrid.Main
import GateGrid.Proofs.Script.Decoding
import GateGrid.Proofs.Script.Append
import GateGrid.Proofs.Script.Compact
import GateGrid.Proofs.Circuit.Built
import GateGrid.Proofs.Json.Text
import GateGrid.Proofs.Json.Numeral
import GateGrid.Proofs.Circuit.File
import GateGrid.Proofs.Script.Omission
import GateGrid.Proofs.Script.Renaming
import GateGrid.Proofs.Script.Lenience
import GateGrid.Proofs.Json.Literal
import GateGrid.Proofs.Json.PassingOver
import GateGrid.Proofs.Json.Outline
import GateGrid.Proofs.Circuit.Loading
import GateGrid.Proofs.Script.Alike
import GateGrid.Proofs.Circuit.Outcomes
import GateGrid.Proofs.Circuit.Misfits
import GateGrid.Proofs.CommandLine.Verbosity
import GateGrid.Proofs.CommandLine.World
import GateGrid.Proofs.Script.Log
import GateGrid.Proofs.CommandLine.Encode
import GateGrid.Proofs.Script.Parts
import GateGrid.Proofs.Circuit.Entries
import GateGrid.Proofs.Circuit.Measuring
import GateGrid.Proofs.Script.Width
import GateGrid.Proofs.Script.Standard
import GateGrid.Proofs.Json.Choice
import GateGrid.Proofs.Instruction.Json

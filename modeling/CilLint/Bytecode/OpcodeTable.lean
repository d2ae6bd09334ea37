import CilLint.Bytecode.Opcode

/-!
# The table of opcodes

Every assigned opcode with its mnemonic, the form of its operand and its effect on control flow. The
table is all that decoding knows about lengths.
-/

namespace CilLint.Opcode

/-- The opcodes of one byte. -/
def short : List Opcode := [
  ⟨0x00, "nop", .none, .next⟩,
  ⟨0x01, "break", .none, .modifier⟩,
  ⟨0x02, "ldarg.0", .none, .next⟩,
  ⟨0x03, "ldarg.1", .none, .next⟩,
  ⟨0x04, "ldarg.2", .none, .next⟩,
  ⟨0x05, "ldarg.3", .none, .next⟩,
  ⟨0x06, "ldloc.0", .none, .next⟩,
  ⟨0x07, "ldloc.1", .none, .next⟩,
  ⟨0x08, "ldloc.2", .none, .next⟩,
  ⟨0x09, "ldloc.3", .none, .next⟩,
  ⟨0x0A, "stloc.0", .none, .next⟩,
  ⟨0x0B, "stloc.1", .none, .next⟩,
  ⟨0x0C, "stloc.2", .none, .next⟩,
  ⟨0x0D, "stloc.3", .none, .next⟩,
  ⟨0x0E, "ldarg.s", .shortVar, .next⟩,
  ⟨0x0F, "ldarga.s", .shortVar, .next⟩,
  ⟨0x10, "starg.s", .shortVar, .next⟩,
  ⟨0x11, "ldloc.s", .shortVar, .next⟩,
  ⟨0x12, "ldloca.s", .shortVar, .next⟩,
  ⟨0x13, "stloc.s", .shortVar, .next⟩,
  ⟨0x14, "ldnull", .none, .next⟩,
  ⟨0x15, "ldc.i4.m1", .none, .next⟩,
  ⟨0x16, "ldc.i4.0", .none, .next⟩,
  ⟨0x17, "ldc.i4.1", .none, .next⟩,
  ⟨0x18, "ldc.i4.2", .none, .next⟩,
  ⟨0x19, "ldc.i4.3", .none, .next⟩,
  ⟨0x1A, "ldc.i4.4", .none, .next⟩,
  ⟨0x1B, "ldc.i4.5", .none, .next⟩,
  ⟨0x1C, "ldc.i4.6", .none, .next⟩,
  ⟨0x1D, "ldc.i4.7", .none, .next⟩,
  ⟨0x1E, "ldc.i4.8", .none, .next⟩,
  ⟨0x1F, "ldc.i4.s", .shortInt, .next⟩,
  ⟨0x20, "ldc.i4", .int32, .next⟩,
  ⟨0x21, "ldc.i8", .int64, .next⟩,
  ⟨0x22, "ldc.r4", .float32, .next⟩,
  ⟨0x23, "ldc.r8", .float64, .next⟩,
  ⟨0x25, "dup", .none, .next⟩,
  ⟨0x26, "pop", .none, .next⟩,
  ⟨0x27, "jmp", .token, .call⟩,
  ⟨0x28, "call", .token, .call⟩,
  ⟨0x29, "calli", .token, .call⟩,
  ⟨0x2A, "ret", .none, .leave⟩,
  ⟨0x2B, "br.s", .shortBranch, .branch⟩,
  ⟨0x2C, "brfalse.s", .shortBranch, .conditional⟩,
  ⟨0x2D, "brtrue.s", .shortBranch, .conditional⟩,
  ⟨0x2E, "beq.s", .shortBranch, .conditional⟩,
  ⟨0x2F, "bge.s", .shortBranch, .conditional⟩,
  ⟨0x30, "bgt.s", .shortBranch, .conditional⟩,
  ⟨0x31, "ble.s", .shortBranch, .conditional⟩,
  ⟨0x32, "blt.s", .shortBranch, .conditional⟩,
  ⟨0x33, "bne.un.s", .shortBranch, .conditional⟩,
  ⟨0x34, "bge.un.s", .shortBranch, .conditional⟩,
  ⟨0x35, "bgt.un.s", .shortBranch, .conditional⟩,
  ⟨0x36, "ble.un.s", .shortBranch, .conditional⟩,
  ⟨0x37, "blt.un.s", .shortBranch, .conditional⟩,
  ⟨0x38, "br", .branch, .branch⟩,
  ⟨0x39, "brfalse", .branch, .conditional⟩,
  ⟨0x3A, "brtrue", .branch, .conditional⟩,
  ⟨0x3B, "beq", .branch, .conditional⟩,
  ⟨0x3C, "bge", .branch, .conditional⟩,
  ⟨0x3D, "bgt", .branch, .conditional⟩,
  ⟨0x3E, "ble", .branch, .conditional⟩,
  ⟨0x3F, "blt", .branch, .conditional⟩,
  ⟨0x40, "bne.un", .branch, .conditional⟩,
  ⟨0x41, "bge.un", .branch, .conditional⟩,
  ⟨0x42, "bgt.un", .branch, .conditional⟩,
  ⟨0x43, "ble.un", .branch, .conditional⟩,
  ⟨0x44, "blt.un", .branch, .conditional⟩,
  ⟨0x45, "switch", .switch, .conditional⟩,
  ⟨0x46, "ldind.i1", .none, .next⟩,
  ⟨0x47, "ldind.u1", .none, .next⟩,
  ⟨0x48, "ldind.i2", .none, .next⟩,
  ⟨0x49, "ldind.u2", .none, .next⟩,
  ⟨0x4A, "ldind.i4", .none, .next⟩,
  ⟨0x4B, "ldind.u4", .none, .next⟩,
  ⟨0x4C, "ldind.i8", .none, .next⟩,
  ⟨0x4D, "ldind.i", .none, .next⟩,
  ⟨0x4E, "ldind.r4", .none, .next⟩,
  ⟨0x4F, "ldind.r8", .none, .next⟩,
  ⟨0x50, "ldind.ref", .none, .next⟩,
  ⟨0x51, "stind.ref", .none, .next⟩,
  ⟨0x52, "stind.i1", .none, .next⟩,
  ⟨0x53, "stind.i2", .none, .next⟩,
  ⟨0x54, "stind.i4", .none, .next⟩,
  ⟨0x55, "stind.i8", .none, .next⟩,
  ⟨0x56, "stind.r4", .none, .next⟩,
  ⟨0x57, "stind.r8", .none, .next⟩,
  ⟨0x58, "add", .none, .next⟩,
  ⟨0x59, "sub", .none, .next⟩,
  ⟨0x5A, "mul", .none, .next⟩,
  ⟨0x5B, "div", .none, .next⟩,
  ⟨0x5C, "div.un", .none, .next⟩,
  ⟨0x5D, "rem", .none, .next⟩,
  ⟨0x5E, "rem.un", .none, .next⟩,
  ⟨0x5F, "and", .none, .next⟩,
  ⟨0x60, "or", .none, .next⟩,
  ⟨0x61, "xor", .none, .next⟩,
  ⟨0x62, "shl", .none, .next⟩,
  ⟨0x63, "shr", .none, .next⟩,
  ⟨0x64, "shr.un", .none, .next⟩,
  ⟨0x65, "neg", .none, .next⟩,
  ⟨0x66, "not", .none, .next⟩,
  ⟨0x67, "conv.i1", .none, .next⟩,
  ⟨0x68, "conv.i2", .none, .next⟩,
  ⟨0x69, "conv.i4", .none, .next⟩,
  ⟨0x6A, "conv.i8", .none, .next⟩,
  ⟨0x6B, "conv.r4", .none, .next⟩,
  ⟨0x6C, "conv.r8", .none, .next⟩,
  ⟨0x6D, "conv.u4", .none, .next⟩,
  ⟨0x6E, "conv.u8", .none, .next⟩,
  ⟨0x6F, "callvirt", .token, .call⟩,
  ⟨0x70, "cpobj", .token, .next⟩,
  ⟨0x71, "ldobj", .token, .next⟩,
  ⟨0x72, "ldstr", .token, .next⟩,
  ⟨0x73, "newobj", .token, .call⟩,
  ⟨0x74, "castclass", .token, .next⟩,
  ⟨0x75, "isinst", .token, .next⟩,
  ⟨0x76, "conv.r.un", .none, .next⟩,
  ⟨0x79, "unbox", .token, .next⟩,
  ⟨0x7A, "throw", .none, .raise⟩,
  ⟨0x7B, "ldfld", .token, .next⟩,
  ⟨0x7C, "ldflda", .token, .next⟩,
  ⟨0x7D, "stfld", .token, .next⟩,
  ⟨0x7E, "ldsfld", .token, .next⟩,
  ⟨0x7F, "ldsflda", .token, .next⟩,
  ⟨0x80, "stsfld", .token, .next⟩,
  ⟨0x81, "stobj", .token, .next⟩,
  ⟨0x82, "conv.ovf.i1.un", .none, .next⟩,
  ⟨0x83, "conv.ovf.i2.un", .none, .next⟩,
  ⟨0x84, "conv.ovf.i4.un", .none, .next⟩,
  ⟨0x85, "conv.ovf.i8.un", .none, .next⟩,
  ⟨0x86, "conv.ovf.u1.un", .none, .next⟩,
  ⟨0x87, "conv.ovf.u2.un", .none, .next⟩,
  ⟨0x88, "conv.ovf.u4.un", .none, .next⟩,
  ⟨0x89, "conv.ovf.u8.un", .none, .next⟩,
  ⟨0x8A, "conv.ovf.i.un", .none, .next⟩,
  ⟨0x8B, "conv.ovf.u.un", .none, .next⟩,
  ⟨0x8C, "box", .token, .next⟩,
  ⟨0x8D, "newarr", .token, .next⟩,
  ⟨0x8E, "ldlen", .none, .next⟩,
  ⟨0x8F, "ldelema", .token, .next⟩,
  ⟨0x90, "ldelem.i1", .none, .next⟩,
  ⟨0x91, "ldelem.u1", .none, .next⟩,
  ⟨0x92, "ldelem.i2", .none, .next⟩,
  ⟨0x93, "ldelem.u2", .none, .next⟩,
  ⟨0x94, "ldelem.i4", .none, .next⟩,
  ⟨0x95, "ldelem.u4", .none, .next⟩,
  ⟨0x96, "ldelem.i8", .none, .next⟩,
  ⟨0x97, "ldelem.i", .none, .next⟩,
  ⟨0x98, "ldelem.r4", .none, .next⟩,
  ⟨0x99, "ldelem.r8", .none, .next⟩,
  ⟨0x9A, "ldelem.ref", .none, .next⟩,
  ⟨0x9B, "stelem.i", .none, .next⟩,
  ⟨0x9C, "stelem.i1", .none, .next⟩,
  ⟨0x9D, "stelem.i2", .none, .next⟩,
  ⟨0x9E, "stelem.i4", .none, .next⟩,
  ⟨0x9F, "stelem.i8", .none, .next⟩,
  ⟨0xA0, "stelem.r4", .none, .next⟩,
  ⟨0xA1, "stelem.r8", .none, .next⟩,
  ⟨0xA2, "stelem.ref", .none, .next⟩,
  ⟨0xA3, "ldelem", .token, .next⟩,
  ⟨0xA4, "stelem", .token, .next⟩,
  ⟨0xA5, "unbox.any", .token, .next⟩,
  ⟨0xB3, "conv.ovf.i1", .none, .next⟩,
  ⟨0xB4, "conv.ovf.u1", .none, .next⟩,
  ⟨0xB5, "conv.ovf.i2", .none, .next⟩,
  ⟨0xB6, "conv.ovf.u2", .none, .next⟩,
  ⟨0xB7, "conv.ovf.i4", .none, .next⟩,
  ⟨0xB8, "conv.ovf.u4", .none, .next⟩,
  ⟨0xB9, "conv.ovf.i8", .none, .next⟩,
  ⟨0xBA, "conv.ovf.u8", .none, .next⟩,
  ⟨0xC2, "refanyval", .token, .next⟩,
  ⟨0xC3, "ckfinite", .none, .next⟩,
  ⟨0xC6, "mkrefany", .token, .next⟩,
  ⟨0xD0, "ldtoken", .token, .next⟩,
  ⟨0xD1, "conv.u2", .none, .next⟩,
  ⟨0xD2, "conv.u1", .none, .next⟩,
  ⟨0xD3, "conv.i", .none, .next⟩,
  ⟨0xD4, "conv.ovf.i", .none, .next⟩,
  ⟨0xD5, "conv.ovf.u", .none, .next⟩,
  ⟨0xD6, "add.ovf", .none, .next⟩,
  ⟨0xD7, "add.ovf.un", .none, .next⟩,
  ⟨0xD8, "mul.ovf", .none, .next⟩,
  ⟨0xD9, "mul.ovf.un", .none, .next⟩,
  ⟨0xDA, "sub.ovf", .none, .next⟩,
  ⟨0xDB, "sub.ovf.un", .none, .next⟩,
  ⟨0xDC, "endfinally", .none, .leave⟩,
  ⟨0xDD, "leave", .branch, .branch⟩,
  ⟨0xDE, "leave.s", .shortBranch, .branch⟩,
  ⟨0xDF, "stind.i", .none, .next⟩,
  ⟨0xE0, "conv.u", .none, .next⟩]

/-- The opcodes of two bytes, the first of which is the escape byte. -/
def long : List Opcode := [
  ⟨0xFE00, "arglist", .none, .next⟩,
  ⟨0xFE01, "ceq", .none, .next⟩,
  ⟨0xFE02, "cgt", .none, .next⟩,
  ⟨0xFE03, "cgt.un", .none, .next⟩,
  ⟨0xFE04, "clt", .none, .next⟩,
  ⟨0xFE05, "clt.un", .none, .next⟩,
  ⟨0xFE06, "ldftn", .token, .next⟩,
  ⟨0xFE07, "ldvirtftn", .token, .next⟩,
  ⟨0xFE09, "ldarg", .var, .next⟩,
  ⟨0xFE0A, "ldarga", .var, .next⟩,
  ⟨0xFE0B, "starg", .var, .next⟩,
  ⟨0xFE0C, "ldloc", .var, .next⟩,
  ⟨0xFE0D, "ldloca", .var, .next⟩,
  ⟨0xFE0E, "stloc", .var, .next⟩,
  ⟨0xFE0F, "localloc", .none, .next⟩,
  ⟨0xFE11, "endfilter", .none, .leave⟩,
  ⟨0xFE12, "unaligned.", .shortInt, .modifier⟩,
  ⟨0xFE13, "volatile.", .none, .modifier⟩,
  ⟨0xFE14, "tail.", .none, .modifier⟩,
  ⟨0xFE15, "initobj", .token, .next⟩,
  ⟨0xFE16, "constrained.", .token, .modifier⟩,
  ⟨0xFE17, "cpblk", .none, .next⟩,
  ⟨0xFE18, "initblk", .none, .next⟩,
  ⟨0xFE19, "no.", .shortInt, .modifier⟩,
  ⟨0xFE1A, "rethrow", .none, .raise⟩,
  ⟨0xFE1C, "sizeof", .token, .next⟩,
  ⟨0xFE1D, "refanytype", .none, .next⟩,
  ⟨0xFE1E, "readonly.", .none, .modifier⟩]

/-- **All opcodes,** in the order of their codes. -/
def table : List Opcode := short ++ long

/-- The opcode with a given code. -/
def ofCode? (code : UInt16) : Option Opcode := table.find? fun o => o.code == code

end CilLint.Opcode

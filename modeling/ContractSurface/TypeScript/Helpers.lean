/-! # Helper functions of the generated command line

The text of the functions that read answers, pick choices and show values. They follow the rules by
which a session of this library reads answers.
-/
namespace ContractSurface.TypeScript

def truthWordLines : List String :=
  ["const TRUTHY = ['true', 'yes', 'y', '1'];",
   "const FALSY = ['false', 'no', 'n', '0'];"]

def parseIntegerLines : List String :=
  ["function parseInteger(name: string, text: string, min: bigint, max?: bigint): bigint \x7b",
   "  const trimmed = text.trim();",
   "  if (!/^\\d+$/.test(trimmed)) \x7b",
   "    throw new Error(`$\x7bname\x7d expects an integer, got \"$\x7btext\x7d\"`);",
   "  \x7d",
   "  const value = BigInt(trimmed);",
   "  if (value < min || (max !== undefined && value > max)) \x7b",
   "    throw new Error(`$\x7bname\x7d must be within $\x7bmin\x7d..=$\x7bmax ?? ''\x7d, got $\x7bvalue\x7d`);",
   "  \x7d",
   "  return value;",
   "\x7d"]

def parseBooleanLines : List String :=
  ["function parseBoolean(name: string, text: string): boolean \x7b",
   "  const token = text.trim().toLowerCase();",
   "  if (TRUTHY.includes(token)) return true;",
   "  if (FALSY.includes(token)) return false;",
   "  throw new Error(`$\x7bname\x7d expects yes/no, got \"$\x7btext\x7d\"`);",
   "\x7d"]

def parseBytesLines : List String :=
  ["function parseBytes(text: string): Uint8Array \x7b",
   "  const trimmed = text.trim();",
   "  if (/^0x([0-9a-fA-F]\x7b2\x7d)*$/.test(trimmed)) \x7b",
   "    const hex = trimmed.slice(2);",
   "    const out = new Uint8Array(hex.length / 2);",
   "    for (let i = 0; i < out.length; i++) \x7b",
   "      out[i] = parseInt(hex.slice(i * 2, i * 2 + 2), 16);",
   "    \x7d",
   "    return out;",
   "  \x7d",
   "  return new TextEncoder().encode(text);",
   "\x7d"]

def pickChoiceLines : List String :=
  ["async function pickChoice(rl: LineReader, name: string, choices: readonly Choice[]): Promise<string> \x7b",
   "  console.log(`Select $\x7bname\x7d:`);",
   "  choices.forEach((c, i) => console.log(`  $\x7bi + 1\x7d) $\x7bc.label\x7d`));",
   "  const answer = (await rl.question(`Choice [1-$\x7bchoices.length\x7d]: `)).trim();",
   "  const picked = /^\\d+$/.test(answer) ? choices[Number(answer) - 1] : undefined;",
   "  if (picked === undefined) \x7b",
   "    throw new Error(`$\x7bname\x7d: \"$\x7banswer\x7d\" is not one of the listed choices`);",
   "  \x7d",
   "  return picked.value;",
   "\x7d"]

def formatValueLines : List String :=
  ["function formatValue(value: unknown): string \x7b",
   "  if (value instanceof Uint8Array) \x7b",
   "    return '0x' + Array.from(value, (b) => b.toString(16).padStart(2, '0')).join('');",
   "  \x7d",
   "  if (typeof value === 'bigint') return value.toString();",
   "  if (value === undefined) return '<unavailable>';",
   "  return JSON.stringify(value, (_k, v) => (typeof v === 'bigint' ? v.toString() : v));",
   "\x7d"]

def reportErrorLines : List String :=
  ["function reportError(operation: string, error: unknown): void \x7b",
   "  const message = error instanceof Error ? error.message : String(error);",
   "  console.log(`✗ $\x7boperation\x7d failed: $\x7bmessage\x7d`);",
   "  const hint = ERROR_HINTS.find((h) => message.includes(h.contains));",
   "  if (hint !== undefined) \x7b",
   "    console.log(`  hint: $\x7bhint.hint\x7d`);",
   "  \x7d",
   "\x7d"]

def helperLines : List String :=
  [truthWordLines, parseIntegerLines, parseBooleanLines, parseBytesLines,
   pickChoiceLines, formatValueLines, reportErrorLines].flatMap (· ++ [""])

end ContractSurface.TypeScript

import LuaSnippet.Text.Lines

/-!
# The default library

The types that every script may name, in two editions.
-/

namespace LuaSnippet.Bundled

def library5 : String := Text.unlines [
  "/// <reference no-default-lib=\"true\"/>",
  "",
  "declare var NaN: number;",
  "declare var Infinity: number;",
  "",
  "declare function parseInt(string: string, radix?: number): number;",
  "declare function parseFloat(string: string): number;",
  "declare function isNaN(number: number): boolean;",
  "declare function isFinite(number: number): boolean;",
  "",
  "interface Object \x7b\x7d",
  "interface Function \x7b\x7d",
  "interface CallableFunction extends Function \x7b\x7d",
  "interface NewableFunction extends Function \x7b\x7d",
  "interface IArguments \x7b\x7d",
  "interface RegExp \x7b\x7d",
  "",
  "interface String \x7b",
  "    readonly length: number;",
  "\x7d",
  "",
  "interface Number \x7b",
  "    toFixed(fractionDigits?: number): string;",
  "\x7d",
  "",
  "interface Boolean \x7b\x7d",
  "",
  "interface Array<T> \x7b",
  "    length: number;",
  "    [n: number]: T;",
  "\x7d",
  "",
  "interface ReadonlyArray<T> \x7b",
  "    readonly length: number;",
  "    readonly [n: number]: T;",
  "\x7d",
  "",
  "interface Iterable<T> \x7b\x7d",
  "",
  "type Record<K, T> = \x7b [key: string]: T \x7d;",
  "type Partial<T> = T;",
  "type Exclude<T, U> = T;"]

def library : String := Text.unlines [
  "/// <reference no-default-lib=\"true\"/>",
  "/// <reference path=\"lib.es5.d.ts\" />"]

def library6 : String := Text.unlines [
  "/// <reference no-default-lib=\"true\"/>",
  "/// <reference path=\"lib.es5.d.ts\" />",
  "",
  "interface Symbol \x7b",
  "    toString(): string;",
  "\x7d",
  "",
  "interface Map<K, V> \x7b",
  "    readonly size: number;",
  "    get(key: K): V | undefined;",
  "    has(key: K): boolean;",
  "\x7d",
  "",
  "interface Set<T> \x7b",
  "    readonly size: number;",
  "    has(value: T): boolean;",
  "\x7d",
  "",
  "interface Promise<T> \x7b\x7d"]

end LuaSnippet.Bundled
